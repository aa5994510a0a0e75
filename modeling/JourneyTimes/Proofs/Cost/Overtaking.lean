import JourneyTimes.Proofs.Cost.Transit
import JourneyTimes.Proofs.Search.Within
import JourneyTimes.Proofs.Timetable.Network

/-!
# Overtaking in a timetable

Whoever gets off early and walks may pay more to be at a stop, and be there in
time for a vehicle that is gone when the cheapest way arrives.  The labels of a
transit network are least costs exactly if nobody overtakes them in this manner,
by a ride from a stop that is reached at another time and at no lower cost.
Transfers are of no use for that, since they cost the same at any time.
-/

namespace JourneyTimes

namespace Transit

variable {K : Type} [Field K] [LinearOrder K] [FloorRing K] [Trigonometry K]
  [IsStrictOrderedRing K]

/-- The path trees of a transit network report all nodes that journeys lead to,
and with their least costs exactly if no journey overtakes them by a ride. -/
theorem calculate_leastCosts {timetable : Timetable (Exact K)}
    {settings : RouterSettings (Exact K)} (finite : timetable.HasFiniteTimes)
    {network : Network (Exact K)} (networked : timetable.toNetwork settings = .ok network)
    {identity : Nat} {graph : Graph (Exact K)}
    (graphed : Graph.ofNetwork identity network = .ok graph)
    (prices : (costModel timetable settings).HasNonnegativePrices graph)
    {landmarks : Option (Landmarks (Exact K))} {tree : PathTree (Exact K)}
    (used : PathTree.Used graph (costModel timetable settings) landmarks tree)
    {source : Nat} (inside : source < graph.size) (start : K) :
    ∃ answered, tree.calculate source start .unbounded = .ok answered ∧
      (∀ node, (answered.cost? node).isSome = true ↔ ∃ links arrival,
        Journey graph (costModel timetable settings) source (Arrival.departure start)
          links node arrival) ∧
      (answered.HasLeastCosts graph (costModel timetable settings) source start ↔
        ¬ ∃ links arrival link, link.stretch.isSome = true ∧
          answered.IsOvertaken graph (costModel timetable settings) source start
            links arrival link) := by
  rcases
      PathTree.calculate_hasLeastCosts_iff (Graph.ofNetwork_wellFormed graphed)
        (Timetable.priced_toNetwork networked graphed) prices (costModel_isAlwaysOpen finite graph)
        used inside start with
    ⟨answered, done, reached, least, dear⟩
  refine ⟨answered, done, reached, ?_⟩
  rw [least]
  constructor
  · rintro notOvertaken ⟨links, arrival, link, -, overtaken⟩
    exact notOvertaken ⟨links, arrival, link, overtaken⟩
  · rintro notOvertaken ⟨links, arrival, link, overtaken⟩
    refine notOvertaken ⟨links, arrival, link, ?_, overtaken⟩
    rcases overtaken.dearer with ⟨spent, spentEq, -⟩
    rcases PathTree.exists_time?_of_cost? spentEq with ⟨time, timeEq⟩
    rw [Option.isSome_iff_ne_none]
    intro isTransfer
    exact dear links arrival link overtaken time timeEq
      (transfer_steady isTransfer time arrival.time).2

end Transit

/-! ## A connection that the cheapest way misses -/

namespace Timetable

/-- A facility of a place. -/
def Facility.at (id : String) (x y : ℚ) : Facility (Exact ℚ) := ⟨id, none, ⟨x, y⟩⟩

/-- The vehicles of line B leave a minute before and five minutes after line A
arrives.  Those who get off line A at the stop before can walk to the first. -/
def connection : Timetable (Exact ℚ) where
  facilities := (((∅ : Std.HashMap String (Facility (Exact ℚ))).insert
    "p0" (.at "p0" (-1000) 40)).insert "p1" (.at "p1" 0 40)).insert
    "q" (.at "q" 0 0) |>.insert "r" (.at "r" 1000 0)
  routes := #[
    { line := "A"
      id := "a"
      mode := "bus"
      stops := [⟨"p0", .departureOnly (0 : ℚ)⟩, ⟨"p1", .both (600 : ℚ) (600 : ℚ)⟩,
        ⟨"q", .arrivalOnly (700 : ℚ)⟩]
      departures := [⟨"d", (0 : ℚ), none⟩] },
    { line := "B"
      id := "b"
      mode := "bus"
      stops := [⟨"q", .departureOnly (0 : ℚ)⟩, ⟨"r", .arrivalOnly (100 : ℚ)⟩]
      departures := [⟨"e", (650 : ℚ), none⟩, ⟨"f", (1000 : ℚ), none⟩] }]

end Timetable

/-- Walking is four times as bad as riding. -/
def RouterSettings.reluctant : RouterSettings (Exact ℚ) where
  walkSpeed := (1 : ℚ)
  beelineFactor := (1 : ℚ)
  transferRadius := (100 : ℚ)
  transferTime := (0 : ℚ)
  ridingTimeUtility := (-1 : ℚ)
  ridingDistanceUtility := (0 : ℚ)
  walkingUtility := (-4 : ℚ)
  waitingUtility := (-1 : ℚ)
  changingUtility := (-1 : ℚ)

theorem RouterSettings.reluctant_penalises : reluctant.Penalises where
  walkSpeed := ⟨1, by norm_num, rfl⟩
  beelineFactor := ⟨1, by norm_num, rfl⟩
  transferTime := ⟨0, le_rfl, rfl⟩
  ridingTime := ⟨-1, by norm_num, rfl⟩
  ridingDistance := ⟨0, le_rfl, rfl⟩
  walking := ⟨-4, by norm_num, rfl⟩
  waiting := ⟨-1, by norm_num, rfl⟩
  changing := ⟨-1, by norm_num, rfl⟩

namespace Timetable

/-- The stops of the two lines. -/
def connectionHalts : List (List (Halt (Exact ℚ))) :=
  [[⟨"A/a/0", ⟨(-1000 : ℚ), (40 : ℚ)⟩, 0, 0, "bus", false, true⟩,
    ⟨"A/a/1", ⟨(0 : ℚ), (40 : ℚ)⟩, 0, 1, "bus", true, true⟩,
    ⟨"A/a/2", ⟨(0 : ℚ), (0 : ℚ)⟩, 0, 2, "bus", true, false⟩],
   [⟨"B/b/0", ⟨(0 : ℚ), (0 : ℚ)⟩, 1, 0, "bus", false, true⟩,
    ⟨"B/b/1", ⟨(1000 : ℚ), (0 : ℚ)⟩, 1, 1, "bus", true, false⟩]]

theorem halts_connection : halts connection = .ok connectionHalts := by
  simp [halts, connection, haltsOfRoute, haltOf, placeOf, Std.HashMap.getElem?_insert,
    List.zipIdx, haltId, Facility.at, connectionHalts]
  decide +kernel

theorem connection_hasFiniteTimes : connection.HasFiniteTimes :=
  .of_routes (by decide +kernel)

/-- The links of the two lines, and the walks between them. -/
def connectionLinks : List (Network.Link (Exact ℚ)) :=
  [⟨"A/a/0>A/a/1", "A/a/0", "A/a/1", (1000 : ℚ), .infinity, (1000 : ℚ), (1 : ℚ), ["bus"],
      some ⟨0, 0, 1⟩⟩,
    ⟨"A/a/1>A/a/2", "A/a/1", "A/a/2", (40 : ℚ), .infinity, (1000 : ℚ), (1 : ℚ), ["bus"],
      some ⟨0, 1, 2⟩⟩,
    ⟨"B/b/0>B/b/1", "B/b/0", "B/b/1", (1000 : ℚ), .infinity, (1000 : ℚ), (1 : ℚ), ["bus"],
      some ⟨1, 0, 1⟩⟩,
    ⟨"A/a/1>B/b/0", "A/a/1", "B/b/0", (40 : ℚ), (1 : ℚ), (1000 : ℚ), (1 : ℚ), ["walk"], none⟩,
    ⟨"A/a/2>B/b/0", "A/a/2", "B/b/0", (0 : ℚ), (1 : ℚ), (1000 : ℚ), (1 : ℚ), ["walk"], none⟩]

theorem links_connection : ∃ walks,
    transfers .reluctant connectionHalts.flatten = .ok walks ∧
      connectionHalts.flatMap rides ++ walks = connectionLinks := by
  refine ⟨connectionLinks.drop 3, ?_, ?_⟩ <;> decide +kernel

end Timetable

/-- The graph of the two lines. -/
def Graph.connection : Graph (Exact ℚ) where
  identity := 0
  nodes := #[⟨0, "A/a/0", ⟨(-1000 : ℚ), (40 : ℚ)⟩⟩, ⟨1, "A/a/1", ⟨(0 : ℚ), (40 : ℚ)⟩⟩,
    ⟨2, "A/a/2", ⟨(0 : ℚ), (0 : ℚ)⟩⟩, ⟨3, "B/b/0", ⟨(0 : ℚ), (0 : ℚ)⟩⟩,
    ⟨4, "B/b/1", ⟨(1000 : ℚ), (0 : ℚ)⟩⟩]
  links := #[⟨0, "A/a/0>A/a/1", 0, 1, (1000 : ℚ), .infinity, some ⟨0, 0, 1⟩⟩,
    ⟨1, "A/a/1>A/a/2", 1, 2, (40 : ℚ), .infinity, some ⟨0, 1, 2⟩⟩,
    ⟨2, "B/b/0>B/b/1", 3, 4, (1000 : ℚ), .infinity, some ⟨1, 0, 1⟩⟩,
    ⟨3, "A/a/1>B/b/0", 1, 3, (40 : ℚ), (1 : ℚ), none⟩,
    ⟨4, "A/a/2>B/b/0", 2, 3, (0 : ℚ), (1 : ℚ), none⟩]
  positions := ["A/a/0", "A/a/1", "A/a/2", "B/b/0", "B/b/1"].zipIdx.foldl
    (fun positions (id, index) => positions.insert id index) ∅
  outgoing := FirstOut.ofKeys 5 [0, 1, 3, 1, 2]
  incoming := FirstOut.ofKeys 5 [1, 2, 4, 3, 3]

namespace Timetable

theorem toNetwork_connection : ∃ network,
    connection.toNetwork .reluctant = .ok network ∧
      Graph.ofNetwork 0 network = .ok Graph.connection := by
  rcases links_connection with ⟨walks, walked, links⟩
  rw [toNetwork, halts_connection, ok_bind]
  dsimp only
  rw [walked, ok_bind, links]
  simp only [connectionHalts, connectionLinks, List.flatten, List.append, List.foldl,
    List.foldlM]
  simp [Network.addNode_of_fresh, Network.addLink_of_known, Network.empty]
  simp [Graph.ofNetwork, List.zipIdx, Graph.Link.ofNetwork, Graph.resolve,
    Std.HashMap.getElem?_insert, Graph.Node.ofNetwork, Graph.connection]

end Timetable

namespace Transit

/-- The cost model of the two lines, with their departures. -/
def connectionCost : CostModel (Exact ℚ) :=
  let departures := #[[((0 : ℚ) : Exact ℚ)], [((650 : ℚ) : Exact ℚ), ((1000 : ℚ) : Exact ℚ)]]
  let duration := travelTime Timetable.connection (fun route => departures.getD route [])
    .reluctant
  { travelTime := duration
    disutility := fun link time => costOf .reluctant link (duration link time)
    minimum := minimumCost Timetable.connection .reluctant
    prices := prices Timetable.connection }

theorem costModel_connection : costModel Timetable.connection .reluctant = connectionCost := by
  have sorted : allDepartures Timetable.connection =
      #[[((0 : ℚ) : Exact ℚ)], [((650 : ℚ) : Exact ℚ), ((1000 : ℚ) : Exact ℚ)]] := by
    have inOrder : List.mergeSort [((650 : ℚ) : Exact ℚ), ((1000 : ℚ) : Exact ℚ)]
        (fun left right => !decide (right < left)) = [↑(650 : ℚ), ↑(1000 : ℚ)] := by
      apply List.mergeSort_of_pairwise
      decide +kernel
    simp [allDepartures, Timetable.connection, Timetable.Route.sortedDepartures,
      Timetable.sortTimes, inOrder]
  rw [costModel, sorted]
  rfl

theorem connection_hasNonnegativePrices :
    (costModel Timetable.connection .reluctant).HasNonnegativePrices Graph.connection := by
  refine costModel_hasNonnegativePrices RouterSettings.reluctant_penalises
    Timetable.connection_hasFiniteTimes ?_ ?_
  · intro link member
    have lengths : ∀ link ∈ Graph.connection.links.toList, ∃ length ∈ [(1000 : ℚ), 40, 0],
        link.length = length := by
      decide +kernel
    rcases lengths link member.val with ⟨length, known, lengthEq⟩
    refine ⟨length, ?_, lengthEq⟩
    simp at known
    rcases known with rfl | rfl | rfl <;> norm_num
  · intro link member stretch stretchEq origin destination ends departure arrival
      departureEq arrivalEq
    simp [Graph.connection] at member
    rcases member with rfl | rfl | rfl | rfl | rfl <;> cases stretchEq <;> cases ends <;>
      cases departureEq <;> cases arrivalEq <;> norm_num

/-- Getting off line A early and walking to line B. -/
theorem journey_connection : ∃ links arrival,
    Journey Graph.connection connectionCost 0 (Arrival.departure (0 : ℚ)) links 4 arrival ∧
      arrival.cost = (871 : ℚ) := by
  have inside (position : Nat) (small : position < Graph.connection.links.size) :
      Graph.connection.links[position] ∈ Graph.connection.links :=
    Array.getElem_mem small
  have begun : Journey Graph.connection connectionCost 0 (Arrival.departure (0 : ℚ)) [] 0 _ :=
    .stay
  have ridden := begun.go (inside 0 (by decide)) rfl (by decide +kernel)
  have walked := ridden.go (inside 3 (by decide)) rfl (by decide +kernel)
  have arrived := walked.go (inside 2 (by decide)) rfl (by decide +kernel)
  exact ⟨_, _, arrived, by decide +kernel⟩

/-- The path tree of the two lines is overtaken if it does not report least costs. -/
theorem calculate_leastCosts_connection : ∃ network answered,
    Timetable.connection.toNetwork .reluctant = .ok network ∧
      Graph.ofNetwork 0 network = .ok Graph.connection ∧
      (PathTree.make Graph.connection (costModel Timetable.connection .reluctant)).calculate
        0 (0 : ℚ) .unbounded = .ok answered ∧
      (∀ node, (answered.cost? node).isSome = true ↔ ∃ links arrival,
        Journey Graph.connection (costModel Timetable.connection .reluctant) 0
          (Arrival.departure (0 : ℚ)) links node arrival) ∧
      (answered.HasLeastCosts Graph.connection (costModel Timetable.connection .reluctant)
          0 (0 : ℚ) ↔
        ¬ ∃ links arrival link, link.stretch.isSome = true ∧
          answered.IsOvertaken Graph.connection (costModel Timetable.connection .reluctant)
            0 (0 : ℚ) links arrival link) := by
  rcases Timetable.toNetwork_connection with ⟨network, networked, graphed⟩
  rcases
      calculate_leastCosts Timetable.connection_hasFiniteTimes networked graphed
        connection_hasNonnegativePrices .make (show 0 < Graph.connection.size by decide) 0 with
    ⟨answered, done, reached, least⟩
  exact ⟨network, answered, networked, graphed, done, reached, least⟩

/-- What the path tree reports for the last stop of line B is not the least cost:
walking to an earlier vehicle is cheaper. -/
theorem calculate_connection_not_least : ∃ network,
    Timetable.connection.toNetwork .reluctant = .ok network ∧
      Graph.ofNetwork 0 network = .ok Graph.connection ∧
      ∃ answered,
        (PathTree.make Graph.connection (costModel Timetable.connection .reluctant)).calculate
            0 (0 : ℚ) .unbounded = .ok answered ∧
          answered.cost? 4 = some ((1101 : ℚ) : Exact ℚ) ∧
          (∃ links arrival, Journey Graph.connection (costModel Timetable.connection .reluctant)
            0 (Arrival.departure (0 : ℚ)) links 4 arrival ∧ arrival.cost = (871 : ℚ)) ∧
          ¬ answered.HasLeastCosts Graph.connection
            (costModel Timetable.connection .reluctant) 0 (0 : ℚ) := by
  rcases Timetable.toNetwork_connection with ⟨network, networked, graphed⟩
  refine ⟨network, networked, graphed, ?_⟩
  rw [costModel_connection]
  have reported : (((PathTree.make Graph.connection connectionCost).calculateWithin 20 0 (0 : ℚ)
      .unbounded).bind (·.cost? 4)) = some ((1101 : ℚ) : Exact ℚ) := by
    decide +kernel
  rcases Option.bind_eq_some_iff.mp reported with ⟨answered, within, costReported⟩
  have done := PathTree.calculate_of_within within
  refine ⟨answered, done, costReported, journey_connection, ?_⟩
  intro least
  rcases journey_connection with ⟨links, arrival, journey, costEq⟩
  have atMost := least 4 _ costReported links arrival journey
  rw [costEq, Exact.finite_le_finite] at atMost
  norm_num at atMost

end Transit

end JourneyTimes
