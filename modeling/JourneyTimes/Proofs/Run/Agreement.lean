import JourneyTimes.Proofs.Cost.Minima
import JourneyTimes.Proofs.Cost.Overtaking
import JourneyTimes.Proofs.Matrix.Agreement
import JourneyTimes.Run

/-!
# Runs on a timetable

A run writes a matrix of the times between all zones, and a table of the times between pairs
of nodes, for which landmarks guide the searches.  Where every node is a zone, the table
could as well be copied from the matrix, for all pairs from whose origin ties are even.

Where two ways to a stop cost the same and do not take the same time, a record and a cell of
the same two nodes may differ.  A search keeps the way that it finds first, and a guided one
finds ways in another order.
-/

namespace JourneyTimes

section

variable {α : Type} [Scalar α]

/-! ## Every node as a zone -/

omit [Scalar α] in
/-- Where every node is a zone, the central node of a zone is the node with its id. -/
theorem CentralNodes.ofNodes_eq {identity : Nat} {network : Network α} {graph : Graph α}
    (made : Graph.ofNetwork identity network = .ok graph) :
    CentralNodes.ofNodes graph = graph.positions := by
  rw [Graph.ofNetwork_positions made, ofNodes, Array.foldl_toList]

omit [Scalar α] in
theorem CentralNodes.mem_ofNodes {identity : Nat} {network : Network α} {graph : Graph α}
    (made : Graph.ofNetwork identity network = .ok graph) {id : String} {node : Nat} :
    (id, node) ∈ (CentralNodes.ofNodes graph).toList ↔ graph.nodeIndex? id = some node := by
  rw [ofNodes_eq made, Std.HashMap.mem_toList_iff_getElem?_eq_some]
  rfl

theorem CentralNodes.nodup_zones (central : CentralNodes) :
    (central.toList.map Prod.fst).Nodup := by
  rw [Std.HashMap.map_fst_toList_eq_keys]
  exact Std.HashMap.nodup_keys

/-! ## What a run does -/

variable {m : Type → Type} [Monad m]

theorem lift_ok_bind [LawfulMonad m] {β γ : Type} (value : β) (next : β → ExceptT Error m γ) :
    ((liftM (Except.ok value : Except Error β) : ExceptT Error m β) >>= next) = next value :=
  pure_bind value next

theorem lift_error_bind [LawfulMonad m] {β γ : Type} (error : Error)
    (next : β → ExceptT Error m γ) :
    ((liftM (Except.error error : Except Error β) : ExceptT Error m β) >>= next) = throw error :=
  pure_bind (m := m) (Except.error error) _

theorem lift_bind [LawfulMonad m] {β γ : Type} (compute : Except Error β)
    (next : β → Except Error γ) :
    (liftM (compute >>= next) : ExceptT Error m γ) =
      (liftM compute : ExceptT Error m β) >>= fun value => liftM (next value) := by
  cases compute with
  | ok value => rw [ok_bind, lift_ok_bind]
  | error error =>
      rw [lift_error_bind]
      rfl

/-- What follows on a computation matters only for its result. -/
theorem lift_bind_congr [LawfulMonad m] {β γ : Type} {compute : Except Error β}
    {next other : β → ExceptT Error m γ}
    (agrees : ∀ value, compute = .ok value → next value = other value) :
    ((liftM compute : ExceptT Error m β) >>= next) =
      (liftM compute : ExceptT Error m β) >>= other := by
  cases compute with
  | ok value => rw [lift_ok_bind, lift_ok_bind, agrees value rfl]
  | error error => rw [lift_error_bind, lift_error_bind]

/-- The graph of a timetable, at what its links cost by the timetable. -/
def Run.priceTimetable (settings : RouterSettings α) (timetable : Timetable α) :
    Except Error (PricedGraph α) := do
  let network ← timetable.toNetwork settings
  let graph ← graphOf network
  pure ⟨graph, Transit.costModel timetable settings⟩

/-- Everything that is known of the graph of a timetable. -/
theorem Run.priceTimetable_eq_ok {settings : RouterSettings α} {timetable : Timetable α}
    {priced : PricedGraph α} :
    priceTimetable settings timetable = .ok priced ↔ ∃ network,
      timetable.toNetwork settings = .ok network ∧
      Graph.ofNetwork 0 network = .ok priced.graph ∧
      priced.cost = Transit.costModel timetable settings := by
  rw [priceTimetable, bind_eq_ok]
  refine exists_congr fun network => and_congr_right fun _ => ?_
  change ((Graph.ofNetwork 0 network >>= _).map Prod.fst >>= _) = _ ↔ _
  cases Graph.ofNetwork 0 network with
  | error error => exact ⟨nofun, nofun⟩
  | ok graph =>
      constructor
      · rintro ⟨rfl⟩
        exact ⟨rfl, rfl⟩
      · rintro ⟨⟨rfl⟩, costEq⟩
        exact congrArg (fun cost => Except.ok (PricedGraph.mk priced.graph cost)) costEq.symm

variable [FileAccess m] [Numeric α]

/-- The builder of matrices of a run. -/
def Configuration.builder (configuration : Configuration α) (priced : PricedGraph α) :
    MatrixBuilder α :=
  .make priced.graph priced.cost configuration.workers

/-- What a run does on the graph that it has loaded. -/
def Configuration.runOn (configuration : Configuration α) (priced : PricedGraph α) :
    ExceptT Error m (Results α) := do
  let central ← Run.loadZones priced.graph configuration.zones
  let builder := configuration.builder priced
  Run.makeOutput configuration
  let zoneTimes ← Run.computeZoneTimes configuration builder central
  let nearbyTimes ← configuration.maxDistance.mapM
    (Run.computeNearbyTimes configuration builder)
  let pairTimes ← match configuration.pairs with
    | some path => Run.computePairTimes configuration builder path
    | none => pure []
  pure { graph := priced.graph, zoneTimes, nearbyTimes, pairTimes }

/-- The graph of a timetable is loaded from its document. -/
theorem Run.load_timetable [LawfulMonad m] (settings : RouterSettings α) {files : Dataset}
    {path : String} (scheduled : files.timetable = some path) :
    (load settings (.dataset files) : ExceptT Error m (PricedGraph α)) = (do
      let timetable ← Timetable.ofDocument (← readText .fileAccess path)
      priceTimetable settings timetable) := by
  rcases files with ⟨network, timetable, mode⟩
  cases scheduled
  change loadTimetable settings path = _
  rw [loadTimetable]
  refine bind_congr fun document => bind_congr fun timetable => ?_
  rw [priceTimetable, lift_bind]
  refine bind_congr fun network => ?_
  rw [lift_bind]
  rfl

/-- A run on a timetable goes on with the graph of its document. -/
theorem Configuration.run_timetable [LawfulMonad m] {configuration : Configuration α}
    {files : Dataset} (source : configuration.source = .dataset files) {path : String}
    (scheduled : files.timetable = some path) :
    (configuration.run : ExceptT Error m (Results α)) = (do
      let timetable ← Timetable.ofDocument (← Run.readText .fileAccess path)
      let priced ← Run.priceTimetable configuration.router timetable
      configuration.runOn priced) := by
  change Run.load configuration.router configuration.source >>= configuration.runOn = _
  rw [source, Run.load_timetable configuration.router scheduled]
  simp only [bind_assoc]

/-- Write the times between the pairs of nodes in a table, where they are known. -/
def Run.copyPairTimes (configuration : Configuration α) (graph : Graph α)
    (time : Nat → Nat → Option α) (path : String) : ExceptT Error m (List (PairTime α)) := do
  let table ← readText .malformedTable path
  let pairs ← Csv.mapRows table (readPair graph)
  let pairTimes := pairs.map fun (origin, destination) =>
    (⟨graph.nodeId origin, graph.nodeId destination, time origin destination⟩ : PairTime α)
  writeTable configuration.output pairTimesFile (pairTable pairTimes)
  pure pairTimes

/-- What a run does that knows the times between all zones and between all pairs of nodes. -/
def Configuration.copy (configuration : Configuration α) (priced : PricedGraph α)
    (zoneTimes : Matrix String α) (time : Nat → Nat → Option α) :
    ExceptT Error m (Results α) := do
  Run.makeOutput configuration
  Run.writeTable configuration.output zoneTimesFile zoneTimes.toCsv
  let nearbyTimes ← configuration.maxDistance.mapM
    (Run.computeNearbyTimes configuration (configuration.builder priced))
  let pairTimes ← match configuration.pairs with
    | some path => Run.copyPairTimes configuration priced.graph time path
    | none => pure []
  pure { graph := priced.graph, zoneTimes, nearbyTimes, pairTimes }

omit [Scalar α] [Numeric α] in
/-- The pairs of nodes in a table are pairs of nodes of the graph. -/
theorem Run.readPair_lt {identity : Nat} {network : Network α} {graph : Graph α}
    (made : Graph.ofNetwork identity network = .ok graph) {row : Csv.Row} {pair : Nat × Nat}
    (read : readPair graph row = .ok pair) : pair.1 < graph.size ∧ pair.2 < graph.size := by
  have inside {column : String} {node : Nat} (found : pairEnd graph row column = .ok node) :
      node < graph.size := by
    rcases bind_eq_ok.mp found with ⟨id, -, resolved⟩
    split at resolved
    · rename_i filed
      cases resolved
      exact (Graph.ofNetwork_nodeIndex? made filed).1
    · cases resolved
  rcases bind_eq_ok.mp read with ⟨origin, originFound, read⟩
  rcases bind_eq_ok.mp read with ⟨destination, destinationFound, read⟩
  cases read
  exact ⟨inside originFound, inside destinationFound⟩

omit [Scalar α] [Numeric α] in
theorem Run.mapRows_readPair_lt {identity : Nat} {network : Network α} {graph : Graph α}
    (made : Graph.ofNetwork identity network = .ok graph) {table : String}
    {pairs : List (Nat × Nat)} (read : Csv.mapRows table (readPair graph) = .ok pairs) :
    ∀ pair ∈ pairs, pair.1 < graph.size ∧ pair.2 < graph.size := by
  intro pair member
  unfold Csv.mapRows at read
  split at read
  · cases read
    cases member
  · rcases exists_of_mapM_eq_ok read member with ⟨fields, -, done⟩
    rcases bind_eq_ok.mp done with ⟨-, -, done⟩
    exact readPair_lt made done

/-- With the builder that a run asks for single journeys, what it computes of pairs of nodes
could be copied. -/
theorem Run.computePairTimes_eq [LawfulMonad m] {configuration : Configuration α}
    {builder guided : MatrixBuilder α} (isGuided : guide configuration builder = .ok guided)
    (sameGraph : guided.graph = builder.graph) {identity : Nat} {network : Network α}
    (made : Graph.ofNetwork identity network = .ok builder.graph) (staffed : 0 < guided.workers)
    (answers : ∀ origin destination, origin < guided.graph.size →
      destination < guided.graph.size → ∃ answer,
        guided.tree.calculatePath origin destination configuration.departure = .ok answer)
    (path : String) :
    (computePairTimes configuration builder path : ExceptT Error m (List (PairTime α))) =
      copyPairTimes configuration builder.graph (guided.pathTime configuration.departure)
        path := by
  rw [computePairTimes, isGuided]
  dsimp only
  rw [lift_ok_bind, copyPairTimes]
  refine bind_congr fun table => lift_bind_congr fun pairs read => ?_
  have found (pair : Nat × Nat) (member : pair ∈ pairs) : ∃ answer,
      guided.tree.calculatePath pair.1 pair.2 configuration.departure = .ok answer := by
    have inside := mapRows_readPair_lt made read pair member
    rw [← sameGraph] at inside
    exact answers _ _ inside.1 inside.2
  rw [MatrixBuilder.journeyTimes_eq staffed found, lift_ok_bind]
  have paired : pairs.zip (pairs.map fun pair =>
        guided.pathTime configuration.departure pair.1 pair.2) =
      pairs.map fun pair =>
        (pair, guided.pathTime configuration.departure pair.1 pair.2) := by
    rw [← List.zip_map', List.map_id']
  rw [paired, List.map_map]
  rfl

/-- With the builder that a run asks for single journeys, all that it computes of times between
zones and between pairs of nodes could be copied. -/
theorem Configuration.runOn_eq_copy [LawfulMonad m] {configuration : Configuration α}
    (everyNode : configuration.zones = none) {priced : PricedGraph α} {zoneTimes : Matrix String α}
    (dense : (configuration.builder priced).denseMatrix (CentralNodes.ofNodes priced.graph).toList
      configuration.departure = .ok zoneTimes)
    {guided : MatrixBuilder α}
    (isGuided : Run.guide configuration (configuration.builder priced) = .ok guided)
    (sameGraph : guided.graph = priced.graph) {identity : Nat} {network : Network α}
    (made : Graph.ofNetwork identity network = .ok priced.graph) (staffed : 0 < guided.workers)
    (answers : ∀ origin destination, origin < guided.graph.size →
      destination < guided.graph.size → ∃ answer,
        guided.tree.calculatePath origin destination configuration.departure = .ok answer) :
    (configuration.runOn priced : ExceptT Error m (Results α)) =
      configuration.copy priced zoneTimes (guided.pathTime configuration.departure) := by
  have zones : (Run.loadZones priced.graph configuration.zones : ExceptT Error m CentralNodes) =
      pure (CentralNodes.ofNodes priced.graph) := by
    rw [everyNode, Run.loadZones]
  have pairs (path : String) : (Run.computePairTimes configuration (configuration.builder priced)
      path : ExceptT Error m (List (PairTime α))) =
        Run.copyPairTimes configuration priced.graph (guided.pathTime configuration.departure)
          path :=
    Run.computePairTimes_eq isGuided sameGraph made staffed answers path
  rw [runOn, copy, zones, pure_bind]
  refine bind_congr fun _ => ?_
  rw [Run.computeZoneTimes, dense]
  simp only [lift_ok_bind, bind_assoc, pure_bind, pairs]

omit [Numeric α] in
/-- The landmarks that a run asks for are new. -/
theorem Run.guide_eq {configuration : Configuration α} (asked : configuration.landmarks ≠ 0)
    {builder : MatrixBuilder α} {landmarks : Landmarks α}
    (preprocessed : Landmarks.preprocess builder.graph builder.cost configuration.landmarks
      configuration.selection = .ok landmarks) :
    guide configuration builder = .ok { builder with landmarks := some landmarks } := by
  have served : (LandmarksFactory.make configuration.landmarks configuration.selection).request
      builder.graph builder.cost = .ok (landmarks, ⟨configuration.landmarks,
        configuration.selection, [(builder.graph.identity, landmarks)]⟩) := by
    change (Landmarks.preprocess builder.graph builder.cost configuration.landmarks
      configuration.selection >>= _) = _
    rw [preprocessed]
    rfl
  rw [guide, if_neg asked]
  dsimp only
  rw [MatrixBuilder.withLandmarks, served]
  rfl

end

variable {K : Type} [Field K] [LinearOrder K] [FloorRing K] [Trigonometry K]
  [IsStrictOrderedRing K]

/-- Landmarks guide a path tree to an answer about every two stops of a timetable. -/
theorem Timetable.calculatePath_answers
    (roots : ∀ value : K, 0 ≤ value → 0 ≤ Trigonometry.squareRoot value)
    {router : RouterSettings (Exact K)} (penalises : router.Penalises)
    {timetable : Timetable (Exact K)} (finite : timetable.HasFiniteTimes)
    {network : Network (Exact K)} (networked : timetable.toNetwork router = .ok network)
    {identity : Nat} {graph : Graph (Exact K)} (made : Graph.ofNetwork identity network = .ok graph)
    (forward : Transit.RunsForward timetable graph) (landmarks : Landmarks (Exact K))
    (departure : K) (origin destination : Nat) (originInside : origin < graph.size)
    (destinationInside : destination < graph.size) :
    ∃ answer, (PathTree.withLandmarks graph (Transit.costModel timetable router)
      landmarks).calculatePath origin destination (departure : Exact K) = .ok answer := by
  have respects := Transit.costModel_respectsMinima penalises finite
    (Timetable.lengths_toNetwork roots networked made) forward
  rcases (PathTree.Used.withLandmarks landmarks).calculatePath_guided
      (Graph.ofNetwork_wellFormed made) (Timetable.priced_toNetwork networked made) originInside
      destinationInside (respects.isNonnegative.isNonnegativeFrom origin ⟨departure, rfl⟩) with
    ⟨_, _, _, _, _, calculated, -⟩
  exact ⟨_, calculated⟩

/-- On a timetable where every node is a zone, a run that finds the times between all zones
copies from them those of pairs, from all nodes in whose sweep ties are even. -/
theorem Configuration.runOn_timetable
    (roots : ∀ value : K, 0 ≤ value → 0 ≤ Trigonometry.squareRoot value)
    {configuration : Configuration (Exact K)} (penalises : configuration.router.Penalises)
    {departure : K} (departs : configuration.departure = departure)
    (everyNode : configuration.zones = none) (asked : configuration.landmarks ≠ 0)
    {timetable : Timetable (Exact K)} (finite : timetable.HasFiniteTimes)
    {priced : PricedGraph (Exact K)}
    (loaded : Run.priceTimetable configuration.router timetable = .ok priced)
    (forward : Transit.RunsForward timetable priced.graph) {zoneTimes : Matrix String (Exact K)}
    (dense : (configuration.builder priced).denseMatrix (CentralNodes.ofNodes priced.graph).toList
      configuration.departure = .ok zoneTimes) :
    ∃ guided, Run.guide configuration (configuration.builder priced) = .ok guided ∧
      (∀ {m : Type → Type} [Monad m] [LawfulMonad m] [FileAccess m] [Numeric (Exact K)],
        (configuration.runOn priced : ExceptT Error m (Results (Exact K))) =
          configuration.copy priced zoneTimes (guided.pathTime configuration.departure)) ∧
      ∀ (start finish : String) (origin destination : Nat),
        priced.graph.nodeIndex? start = some origin →
        priced.graph.nodeIndex? finish = some destination →
        (∀ swept, (configuration.builder priced).tree.calculate origin configuration.departure
            .unbounded = .ok swept → swept.HasEvenTies priced.graph priced.cost origin) →
        guided.pathTime configuration.departure origin destination =
          zoneTimes.get? start finish := by
  rcases priced with ⟨graph, cost⟩
  rcases Run.priceTimetable_eq_ok.mp loaded with ⟨network, networked, made, rfl⟩
  have prices := Timetable.priced_toNetwork networked made
  have respects := Transit.costModel_respectsMinima penalises finite
    (Timetable.lengths_toNetwork roots networked made) forward
  rcases Landmarks.preprocess_ok prices configuration.landmarks configuration.selection with
    ⟨landmarks, preprocessed⟩
  have isGuided : Run.guide configuration (configuration.builder
      ⟨graph, Transit.costModel timetable configuration.router⟩) = .ok _ :=
    Run.guide_eq asked preprocessed
  have staffed : 0 < configuration.workers := MatrixBuilder.staffed_of_denseMatrix dense
  refine ⟨_, isGuided, ?_, ?_⟩
  · intro m _ _ _ _
    refine Configuration.runOn_eq_copy everyNode dense isGuided rfl made staffed ?_
    rw [departs]
    exact Timetable.calculatePath_answers roots penalises finite networked made forward landmarks
      departure
  · intro start finish origin destination originFound destinationFound ties
    rw [departs] at dense ties ⊢
    exact MatrixBuilder.pathTime_agrees (Graph.ofNetwork_wellFormed made) prices respects
      (CentralNodes.nodup_zones _) dense preprocessed
      ((CentralNodes.mem_ofNodes made).mpr originFound)
      ((CentralNodes.mem_ofNodes made).mpr destinationFound)
      (Graph.ofNetwork_nodeIndex? made destinationFound).1 ties

/-! ## Rivals -/

namespace Timetable

/-- Lines A and B leave the same place at once.  Line B is faster, but ends a walk away from
the last stop of line A, where line C leaves to the place. -/
def rivals : Timetable (Exact ℚ) where
  facilities := ((∅ : Std.HashMap String (Facility (Exact ℚ))).insert "x" (.at "x" 0 0)).insert
    "y" (.at "y" 1000 0) |>.insert "z" (.at "z" 1025 0)
  routes := #[
    { line := "A"
      id := "slow"
      mode := "bus"
      stops := [⟨"x", .departureOnly (0 : ℚ)⟩, ⟨"y", .arrivalOnly (200 : ℚ)⟩]
      departures := [⟨"d1", (36000 : ℚ), none⟩] },
    { line := "B"
      id := "fast"
      mode := "bus"
      stops := [⟨"x", .departureOnly (0 : ℚ)⟩, ⟨"z", .arrivalOnly (100 : ℚ)⟩]
      departures := [⟨"d2", (36000 : ℚ), none⟩] },
    { line := "C"
      id := "back"
      mode := "bus"
      stops := [⟨"y", .departureOnly (0 : ℚ)⟩, ⟨"x", .arrivalOnly (100 : ℚ)⟩]
      departures := [⟨"d3", (36000 : ℚ), none⟩] }]

theorem rivals_hasFiniteTimes : rivals.HasFiniteTimes :=
  .of_routes (by decide +kernel)

/-- The stops of the rivals. -/
def rivalHalts : List (List (Halt (Exact ℚ))) :=
  [[⟨"A/slow/0", ⟨(0 : ℚ), (0 : ℚ)⟩, 0, 0, "bus", false, true⟩,
    ⟨"A/slow/1", ⟨(1000 : ℚ), (0 : ℚ)⟩, 0, 1, "bus", true, false⟩],
   [⟨"B/fast/0", ⟨(0 : ℚ), (0 : ℚ)⟩, 1, 0, "bus", false, true⟩,
    ⟨"B/fast/1", ⟨(1025 : ℚ), (0 : ℚ)⟩, 1, 1, "bus", true, false⟩],
   [⟨"C/back/0", ⟨(1000 : ℚ), (0 : ℚ)⟩, 2, 0, "bus", false, true⟩,
    ⟨"C/back/1", ⟨(0 : ℚ), (0 : ℚ)⟩, 2, 1, "bus", true, false⟩]]

theorem halts_rivals : halts rivals = .ok rivalHalts := by
  simp [halts, rivals, haltsOfRoute, haltOf, placeOf, Std.HashMap.getElem?_insert, List.zipIdx,
    haltId, Facility.at, rivalHalts]
  decide +kernel

/-- The links of the rivals, and the walks between them. -/
def rivalLinks : List (Network.Link (Exact ℚ)) :=
  [⟨"A/slow/0>A/slow/1", "A/slow/0", "A/slow/1", (1000 : ℚ), .infinity, (1000 : ℚ), (1 : ℚ),
      ["bus"], some ⟨0, 0, 1⟩⟩,
    ⟨"B/fast/0>B/fast/1", "B/fast/0", "B/fast/1", (1025 : ℚ), .infinity, (1000 : ℚ), (1 : ℚ),
      ["bus"], some ⟨1, 0, 1⟩⟩,
    ⟨"C/back/0>C/back/1", "C/back/0", "C/back/1", (1000 : ℚ), .infinity, (1000 : ℚ), (1 : ℚ),
      ["bus"], some ⟨2, 0, 1⟩⟩,
    ⟨"A/slow/1>C/back/0", "A/slow/1", "C/back/0", (0 : ℚ), (1 : ℚ), (1000 : ℚ), (1 : ℚ), ["walk"],
      none⟩,
    ⟨"B/fast/1>C/back/0", "B/fast/1", "C/back/0", (25 : ℚ), (1 : ℚ), (1000 : ℚ), (1 : ℚ),
      ["walk"], none⟩,
    ⟨"C/back/1>A/slow/0", "C/back/1", "A/slow/0", (0 : ℚ), (1 : ℚ), (1000 : ℚ), (1 : ℚ), ["walk"],
      none⟩,
    ⟨"C/back/1>B/fast/0", "C/back/1", "B/fast/0", (0 : ℚ), (1 : ℚ), (1000 : ℚ), (1 : ℚ), ["walk"],
      none⟩]

theorem links_rivals : ∃ walks, transfers .reluctant rivalHalts.flatten = .ok walks ∧
    rivalHalts.flatMap rides ++ walks = rivalLinks := by
  refine ⟨rivalLinks.drop 3, ?_, ?_⟩ <;> decide +kernel

end Timetable

/-- The graph of the rivals. -/
def Graph.rivals : Graph (Exact ℚ) where
  identity := 0
  nodes := #[⟨0, "A/slow/0", ⟨(0 : ℚ), (0 : ℚ)⟩⟩, ⟨1, "A/slow/1", ⟨(1000 : ℚ), (0 : ℚ)⟩⟩,
    ⟨2, "B/fast/0", ⟨(0 : ℚ), (0 : ℚ)⟩⟩, ⟨3, "B/fast/1", ⟨(1025 : ℚ), (0 : ℚ)⟩⟩,
    ⟨4, "C/back/0", ⟨(1000 : ℚ), (0 : ℚ)⟩⟩, ⟨5, "C/back/1", ⟨(0 : ℚ), (0 : ℚ)⟩⟩]
  links := #[⟨0, "A/slow/0>A/slow/1", 0, 1, (1000 : ℚ), .infinity, some ⟨0, 0, 1⟩⟩,
    ⟨1, "B/fast/0>B/fast/1", 2, 3, (1025 : ℚ), .infinity, some ⟨1, 0, 1⟩⟩,
    ⟨2, "C/back/0>C/back/1", 4, 5, (1000 : ℚ), .infinity, some ⟨2, 0, 1⟩⟩,
    ⟨3, "A/slow/1>C/back/0", 1, 4, (0 : ℚ), (1 : ℚ), none⟩,
    ⟨4, "B/fast/1>C/back/0", 3, 4, (25 : ℚ), (1 : ℚ), none⟩,
    ⟨5, "C/back/1>A/slow/0", 5, 0, (0 : ℚ), (1 : ℚ), none⟩,
    ⟨6, "C/back/1>B/fast/0", 5, 2, (0 : ℚ), (1 : ℚ), none⟩]
  positions := ["A/slow/0", "A/slow/1", "B/fast/0", "B/fast/1", "C/back/0", "C/back/1"].zipIdx.foldl
    (fun positions (id, index) => positions.insert id index) ∅
  outgoing := FirstOut.ofKeys 6 [0, 2, 4, 1, 3, 5, 5]
  incoming := FirstOut.ofKeys 6 [1, 3, 5, 4, 4, 0, 2]

/-- The configuration of a run on the rivals at ten o'clock, with one landmark. -/
def Configuration.rivals : Configuration (Exact ℚ) where
  source := .dataset ⟨none, some "schedule.xml", none⟩
  zones := none
  pairs := some "pairs.csv"
  output := "out"
  departure := (36000 : ℚ)
  workers := 1
  maxDistance := none
  landmarks := 1
  selection := .farthest
  router := .reluctant

/-- The graph of the rivals, at what its links cost. -/
def PricedGraph.rivals : PricedGraph (Exact ℚ) :=
  ⟨Graph.rivals, Transit.costModel Timetable.rivals .reluctant⟩

theorem Run.priceTimetable_rivals :
    priceTimetable .reluctant Timetable.rivals = .ok PricedGraph.rivals := by
  rw [priceTimetable_eq_ok]
  rcases Timetable.links_rivals with ⟨walks, walked, links⟩
  rw [Timetable.toNetwork, Timetable.halts_rivals, ok_bind]
  dsimp only
  rw [walked, ok_bind, links]
  simp only [Timetable.rivalHalts, Timetable.rivalLinks, List.flatten, List.append, List.foldl,
    List.foldlM]
  simp [Network.addNode_of_fresh, Network.addLink_of_known, Network.empty]
  simp [Graph.ofNetwork, List.zipIdx, Graph.Link.ofNetwork, Graph.resolve,
    Std.HashMap.getElem?_insert, Graph.Node.ofNetwork, Graph.rivals, PricedGraph.rivals]

namespace Transit

/-- The cost model of the rivals, with their departures. -/
def rivalsCost : CostModel (Exact ℚ) :=
  let departures := #[[((36000 : ℚ) : Exact ℚ)], [((36000 : ℚ) : Exact ℚ)],
    [((36000 : ℚ) : Exact ℚ)]]
  let duration := travelTime Timetable.rivals (fun route => departures.getD route []) .reluctant
  { travelTime := duration
    disutility := fun link time => costOf .reluctant link (duration link time)
    minimum := minimumCost Timetable.rivals .reluctant
    prices := prices Timetable.rivals }

theorem costModel_rivals : costModel Timetable.rivals .reluctant = rivalsCost := by
  have sorted : allDepartures Timetable.rivals = #[[((36000 : ℚ) : Exact ℚ)],
      [((36000 : ℚ) : Exact ℚ)], [((36000 : ℚ) : Exact ℚ)]] := by
    simp [allDepartures, Timetable.rivals, Timetable.Route.sortedDepartures, Timetable.sortTimes]
  rw [costModel, sorted]
  rfl

theorem rivals_runsForward : RunsForward Timetable.rivals Graph.rivals := by
  intro link member stretch stretchEq origin destination ends departure arrival departureEq
    arrivalEq
  simp [Graph.rivals] at member
  rcases member with rfl | rfl | rfl | rfl | rfl | rfl | rfl <;> cases stretchEq <;> cases ends <;>
    cases departureEq <;> cases arrivalEq <;> norm_num

end Transit

theorem Graph.nodeIndex?_rivals :
    rivals.nodeIndex? "C/back/0" = some 4 ∧ rivals.nodeIndex? "C/back/1" = some 5 := by
  simp [nodeIndex?, rivals, List.zipIdx, Std.HashMap.getElem_insert]

namespace Configuration

/-- From every stop of the rivals all of them are reached. -/
theorem calculate_rivals {origin : Nat} (inside : origin < 6) : ∃ swept,
    (rivals.builder .rivals).tree.calculate origin (36000 : ℚ) .unbounded = .ok swept ∧
      ∀ destination < 6, (swept.time? destination).isSome = true := by
  have found : ∀ origin < 6, ((PathTree.make Graph.rivals Transit.rivalsCost).calculateWithin 20
      origin (36000 : ℚ) .unbounded).any (fun swept : PathTree (Exact ℚ) =>
        (List.range 6).all fun destination => (swept.time? destination).isSome) = true := by
    decide +kernel
  rcases PathTree.exists_of_calculateWithin (found origin inside) with ⟨swept, done, timed⟩
  rw [← Transit.costModel_rivals] at done
  refine ⟨swept, done, ?_⟩
  intro destination isNode
  exact List.all_eq_true.mp timed destination (List.mem_range.mpr isNode)

theorem denseMatrix_rivals : ∃ zoneTimes : Matrix String (Exact ℚ),
    (rivals.builder .rivals).denseMatrix (CentralNodes.ofNodes Graph.rivals).toList
      rivals.departure = .ok zoneTimes := by
  rcases Run.priceTimetable_eq_ok.mp Run.priceTimetable_rivals with ⟨network, -, made, -⟩
  have inside (zone : String × Nat) (member : zone ∈ (CentralNodes.ofNodes Graph.rivals).toList) :
      zone.2 < 6 :=
    (Graph.ofNetwork_nodeIndex? made ((CentralNodes.mem_ofNodes made).mp member)).1
  refine (MatrixBuilder.denseMatrix_ok_iff Nat.zero_lt_one (CentralNodes.nodup_zones _)).mpr ?_
  intro origin member
  rcases calculate_rivals (inside origin member) with ⟨swept, done, timed⟩
  exact ⟨swept, done, fun destination isZone => timed destination.2 (inside destination isZone)⟩

/-- A run on the rivals copies the time from the last stop of line C to its first one. -/
theorem runOn_timetable_rivals : ∃ zoneTimes guided,
    Run.priceTimetable rivals.router Timetable.rivals = .ok .rivals ∧
      (rivals.builder .rivals).denseMatrix (CentralNodes.ofNodes Graph.rivals).toList
        rivals.departure = .ok zoneTimes ∧
      Run.guide rivals (rivals.builder .rivals) = .ok guided ∧
      (∀ {m : Type → Type} [Monad m] [LawfulMonad m] [FileAccess m] [Numeric (Exact ℚ)],
        (rivals.runOn .rivals : ExceptT Error m (Results (Exact ℚ))) =
          rivals.copy .rivals zoneTimes (guided.pathTime rivals.departure)) ∧
      guided.pathTime rivals.departure 4 5 = zoneTimes.get? "C/back/0" "C/back/1" := by
  rcases denseMatrix_rivals with ⟨zoneTimes, dense⟩
  rcases
      runOn_timetable Trigonometry.squareRoot_nonneg RouterSettings.reluctant_penalises
        (show rivals.departure = ((36000 : ℚ) : Exact ℚ) from rfl) rfl Nat.one_ne_zero
        Timetable.rivals_hasFiniteTimes Run.priceTimetable_rivals Transit.rivals_runsForward
        dense with
    ⟨guided, isGuided, copies, agrees⟩
  refine ⟨zoneTimes, guided, Run.priceTimetable_rivals, dense, isGuided, copies, ?_⟩
  refine agrees _ _ 4 5 Graph.nodeIndex?_rivals.1 Graph.nodeIndex?_rivals.2 ?_
  intro swept done
  have even : ((PathTree.make Graph.rivals Transit.rivalsCost).calculateWithin 20 4 (36000 : ℚ)
      .unbounded).any (fun swept =>
        decide (swept.HasEvenTies Graph.rivals Transit.rivalsCost 4)) = true := by
    decide +kernel
  rcases PathTree.exists_of_calculateWithin even with ⟨same, sameDone, checked⟩
  have ties : same.HasEvenTies Graph.rivals Transit.rivalsCost 4 := of_decide_eq_true checked
  rw [← Transit.costModel_rivals] at sameDone ties
  obtain rfl : swept = same := Except.ok.inj (done.symm.trans sameDone)
  exact ties

/-- The way back from the last stop of line C to its first one takes 200 seconds by line A and
125 by line B, and costs the same.  A run finds the one for the pair, and the other for all
zones. -/
theorem pathTime_rivals_differs :
    rivals.router.Penalises ∧ rivals.zones = none ∧ 0 < rivals.landmarks ∧
      Run.priceTimetable rivals.router Timetable.rivals = .ok .rivals ∧
      Graph.rivals.nodeIndex? "C/back/0" = some 4 ∧ Graph.rivals.nodeIndex? "C/back/1" = some 5 ∧
      ∃ zoneTimes guided,
        (rivals.builder .rivals).denseMatrix (CentralNodes.ofNodes Graph.rivals).toList
          rivals.departure = .ok zoneTimes ∧
        Run.guide rivals (rivals.builder .rivals) = .ok guided ∧
        (∀ {m : Type → Type} [Monad m] [LawfulMonad m] [FileAccess m] [Numeric (Exact ℚ)],
          (rivals.runOn .rivals : ExceptT Error m (Results (Exact ℚ))) =
            rivals.copy .rivals zoneTimes (guided.pathTime rivals.departure)) ∧
        guided.pathTime rivals.departure 5 4 = some ↑(200 : ℚ) ∧
        zoneTimes.get? "C/back/1" "C/back/0" = some ↑(125 : ℚ) := by
  rcases Run.priceTimetable_eq_ok.mp Run.priceTimetable_rivals with ⟨network, networked, made, -⟩
  rcases denseMatrix_rivals with ⟨zoneTimes, dense⟩
  have slow : ((Landmarks.preprocess Graph.rivals Transit.rivalsCost 1 .farthest).toOption.bind
      fun landmarks => ((PathTree.withLandmarks Graph.rivals Transit.rivalsCost
        landmarks).calculatePathWithin 20 5 4 (36000 : ℚ)).map (·.1.travelTime)) =
      some ((200 : ℚ) : Exact ℚ) := by
    decide +kernel
  have fast : ((PathTree.make Graph.rivals Transit.rivalsCost).calculateWithin 20 5 (36000 : ℚ)
      .unbounded).any (fun swept => decide (swept.time? 4 = some ↑(36125 : ℚ))) = true := by
    decide +kernel
  rcases exists_of_bind_toOption slow with ⟨landmarks, preprocessed, slow⟩
  rcases Option.map_eq_some_iff.mp slow with ⟨⟨path, answered⟩, within, slowTime⟩
  have pathDone := PathTree.calculatePath_of_within within
  rcases PathTree.exists_of_calculateWithin fast with ⟨swept, sweptDone, fastTime⟩
  rw [← Transit.costModel_rivals] at preprocessed pathDone sweptDone
  have isGuided : Run.guide rivals (rivals.builder .rivals) = .ok _ :=
    Run.guide_eq Nat.one_ne_zero preprocessed
  refine ⟨RouterSettings.reluctant_penalises, rfl, Nat.zero_lt_one, Run.priceTimetable_rivals,
    Graph.nodeIndex?_rivals.1, Graph.nodeIndex?_rivals.2, zoneTimes, _, dense, isGuided, ?_,
    ?_, ?_⟩
  · intro m _ _ _ _
    exact runOn_eq_copy rfl dense isGuided rfl made Nat.zero_lt_one
      (Timetable.calculatePath_answers Trigonometry.squareRoot_nonneg RouterSettings.reluctant_penalises
        Timetable.rivals_hasFiniteTimes networked made Transit.rivals_runsForward landmarks 36000)
  · have found : (⟨Graph.rivals, Transit.costModel Timetable.rivals .reluctant, 1,
        some landmarks⟩ : MatrixBuilder (Exact ℚ)).pathTime (36000 : ℚ) 5 4 = _ :=
      MatrixBuilder.pathTime_of_path pathDone
    exact found.trans (congrArg some slowTime)
  · have zone {id : String} {node : Nat} (found : Graph.rivals.nodeIndex? id = some node) :
        (id, node) ∈ (CentralNodes.ofNodes Graph.rivals).toList :=
      (CentralNodes.mem_ofNodes made).mpr found
    rcases MatrixBuilder.denseMatrix_cell (CentralNodes.nodup_zones _) dense
        (zone Graph.nodeIndex?_rivals.2) (zone Graph.nodeIndex?_rivals.1) with
      ⟨same, time, sameDone, reported, cell⟩
    obtain rfl : swept = same := Except.ok.inj (sweptDone.symm.trans sameDone)
    obtain rfl := Option.some.inj (reported.symm.trans (of_decide_eq_true fastTime))
    rw [cell]
    decide +kernel

end Configuration

end JourneyTimes
