import JourneyTimes.Proofs.Matrix.Skims
import JourneyTimes.Proofs.Search.Agreement

/-!
# Journeys and matrices agree

A matrix is built by searches without a goal, and the times of single journeys by searches
that landmarks guide.  Where ties are even, a journey takes the time in the cell of its
two nodes.
-/

namespace JourneyTimes.MatrixBuilder

section

variable {α : Type} [Scalar α] {builder : MatrixBuilder α}

/-- There are workers if a matrix comes of them. -/
theorem staffed_of_denseMatrix {ζ : Type} [BEq ζ] [Hashable ζ] [ZoneName ζ]
    {central : List (ζ × Nat)} {departure : α} {matrix : Matrix ζ α}
    (dense : builder.denseMatrix central departure = .ok matrix) : 0 < builder.workers := by
  rcases bind_eq_ok.mp dense with ⟨-, -, dense⟩
  rcases bind_eq_ok.mp dense with ⟨pool, started, -⟩
  rw [Nat.pos_iff_ne_zero]
  intro none
  rw [startPool, none] at started
  cases started

/-- The cell of two zones holds the time that a fresh path tree finds from the one to the
other. -/
theorem denseMatrix_cell {ζ : Type} [BEq ζ] [Hashable ζ] [ZoneName ζ] [LawfulBEq ζ]
    {central : List (ζ × Nat)} (nodup : (central.map Prod.fst).Nodup) {departure : α}
    {matrix : Matrix ζ α} (dense : builder.denseMatrix central departure = .ok matrix)
    {origin destination : ζ × Nat} (originMember : origin ∈ central)
    (destinationMember : destination ∈ central) :
    ∃ swept time, builder.tree.calculate origin.2 departure .unbounded = .ok swept ∧
      swept.time? destination.2 = some time ∧
      matrix.get? origin.1 destination.1 = Matrix.cellOf (time - departure) := by
  rcases startPool_idle (staffed_of_denseMatrix dense) with ⟨pool, started, idle⟩
  have finished := ((hasDenseSkim started idle nodup departure).eq_ok_iff matrix).mp dense
  have sorted := sortZones_perm central
  rcases rowJob_inOrder_cell ((sorted.map Prod.fst).nodup_iff.mpr nodup) finished
      (sorted.mem_iff.mpr originMember) (sorted.mem_iff.mpr destinationMember) with
    ⟨swept, elapsed, calculated, timed, cell⟩
  rw [timeTo] at timed
  cases reported : swept.time? destination.2 with
  | none =>
      rw [reported] at timed
      cases timed
  | some time =>
      rw [reported] at timed
      cases timed
      exact ⟨swept, time, calculated, reported, cell⟩

/-- The task of a zone writes its row if the search from there finds all zones. -/
theorem rowJob_outcome_ok {ζ : Type} [BEq ζ] [Hashable ζ] [ZoneName ζ] {departure : α}
    {zones : List (ζ × Nat)} {zone : ζ × Nat} (member : zone ∈ zones) {matrix : Matrix ζ α}
    (isOver : matrix.IsOver (zones.map Prod.fst)) {swept : PathTree α}
    (calculated : builder.tree.calculate zone.2 departure .unbounded = .ok swept)
    (timed : ∀ destination ∈ zones, (swept.time? destination.2).isSome = true) :
    ∃ next, Batch.outcome (rowJob builder.graph (zones.map Prod.snd) departure) zone
        ((rowJob builder.graph (zones.map Prod.snd) departure : Job _ _ _ (Matrix ζ α)).work zone
          builder.tree).1 matrix = .ok next ∧
      next.IsOver (zones.map Prod.fst) := by
  have found : ∀ node ∈ zones.map Prod.snd, ∃ time,
      timeTo builder.graph zone.2 departure swept node = .ok time := by
    intro node nodeMember
    rcases List.mem_map.mp nodeMember with ⟨destination, destinationMember, rfl⟩
    rcases Option.isSome_iff_exists.mp (timed destination destinationMember) with ⟨time, timeEq⟩
    exact ⟨time - departure, by rw [timeTo, timeEq]⟩
  rcases mapM_ok found with ⟨times, read⟩
  rcases setRow_of_mapM member isOver read with ⟨next, written⟩
  refine ⟨next, ?_, isOver.setRow written⟩
  rw [rowJob_work, calculated, ok_bind, read]
  exact written

/-- There is a matrix exactly if searches from the central nodes of zones find all of them. -/
theorem denseMatrix_ok_iff {ζ : Type} [BEq ζ] [Hashable ζ] [ZoneName ζ] [LawfulBEq ζ]
    (staffed : 0 < builder.workers) {central : List (ζ × Nat)}
    (nodup : (central.map Prod.fst).Nodup) {departure : α} :
    (∃ matrix : Matrix ζ α, builder.denseMatrix central departure = .ok matrix) ↔
      ∀ origin ∈ central, ∃ swept,
        builder.tree.calculate origin.2 departure .unbounded = .ok swept ∧
          ∀ destination ∈ central, (swept.time? destination.2).isSome = true := by
  constructor
  · rintro ⟨matrix, dense⟩ origin member
    rcases denseMatrix_cell nodup dense member member with ⟨swept, -, calculated, -, -⟩
    refine ⟨swept, calculated, ?_⟩
    intro destination destinationMember
    rcases denseMatrix_cell nodup dense member destinationMember with
      ⟨same, time, sameCalculated, reported, -⟩
    obtain rfl : swept = same := Except.ok.inj (calculated.symm.trans sameCalculated)
    rw [reported, Option.isSome_some]
  · intro found
    rcases startPool_idle staffed with ⟨pool, started, idle⟩
    have sorted := sortZones_perm central
    have begins : (Matrix.make ((sortZones central).map Prod.fst) : Matrix ζ α).IsOver
        ((sortZones central).map Prod.fst) :=
      Matrix.make_isOver ((sorted.map Prod.fst).nodup_iff.mpr nodup)
    have done : ∃ matrix : Matrix ζ α,
        (rowJob builder.graph ((sortZones central).map Prod.snd) departure).inOrder builder.tree
          (sortZones central) (Matrix.make ((sortZones central).map Prod.fst)) = .ok matrix := by
      refine Job.inOrder_ok ?_ begins
      intro zone member matrix isOver
      rcases found zone (sorted.mem_iff.mp member) with ⟨swept, calculated, timed⟩
      exact rowJob_outcome_ok member isOver calculated
        fun destination isZone => timed destination (sorted.mem_iff.mp isZone)
    rcases done with ⟨matrix, finished⟩
    exact ⟨matrix, ((hasDenseSkim started idle nodup departure).eq_ok_iff matrix).mpr finished⟩

/-- The time of a journey between two nodes, on a path tree that has not been used. -/
def pathTime (builder : MatrixBuilder α) (departure : α) (origin destination : Nat) :
    Option α :=
  match builder.tree.calculatePath origin destination departure with
  | .ok (path, _) => path.map (·.travelTime)
  | .error _ => none

theorem pathTime_of_path {departure : α} {origin destination : Nat} {path : Option (Path α)}
    {answered : PathTree α}
    (calculated : builder.tree.calculatePath origin destination departure = .ok (path, answered)) :
    builder.pathTime departure origin destination = path.map (·.travelTime) := by
  rw [pathTime, calculated]

/-- Journeys for which an answer is found have the times of their paths, one by one. -/
theorem journeyTimes_eq (staffed : 0 < builder.workers) {pairs : List (Nat × Nat)}
    {departure : α} (answers : ∀ pair ∈ pairs, ∃ answer,
      builder.tree.calculatePath pair.1 pair.2 departure = .ok answer) :
    builder.journeyTimes pairs departure =
      .ok (pairs.map fun pair => builder.pathTime departure pair.1 pair.2) := by
  rcases startPool_idle staffed with ⟨pool, started, idle⟩
  have skim := hasJourneySkim started idle pairs departure
  have succeeds : ∀ journey ∈ journeys pairs, ∀ times, True → ∃ next,
      Batch.outcome (journeyJob departure) journey
        ((journeyJob departure).work journey builder.tree).1 times = .ok next ∧ True := by
    intro journey member times _
    rcases answers _ (List.mem_of_getElem? (mem_journeys.mp member)) with ⟨answer, calculated⟩
    rw [journeyJob_work, calculated]
    exact ⟨_, rfl, trivial⟩
  rcases Job.inOrder_ok succeeds trivial with ⟨slots, finished⟩
  have done : builder.journeyTimes pairs departure = .ok slots.toList :=
    (skim.eq_ok_iff _).mpr finished
  rcases skim.times _ done with ⟨length, found⟩
  refine done.trans (congrArg Except.ok (List.ext_getElem? fun slot => ?_))
  rw [List.getElem?_map]
  cases asked : pairs[slot]? with
  | none =>
      rw [Option.map_none, List.getElem?_eq_none_iff, length]
      exact List.getElem?_eq_none_iff.mp asked
  | some pair =>
      rcases found slot pair.1 pair.2 asked with ⟨path, answered, calculated, written⟩
      rw [written, Option.map_some, pathTime_of_path calculated]

theorem journeyTimes_of_path (staffed : 0 < builder.workers) {departure : α}
    {origin destination : Nat} {path : Option (Path α)} {answered : PathTree α}
    (calculated : builder.tree.calculatePath origin destination departure = .ok (path, answered)) :
    builder.journeyTimes [(origin, destination)] departure = .ok [path.map (·.travelTime)] := by
  have answers : ∀ pair ∈ [(origin, destination)], ∃ answer,
      builder.tree.calculatePath pair.1 pair.2 departure = .ok answer := by
    intro pair member
    rw [List.mem_singleton.mp member]
    exact ⟨_, calculated⟩
  rw [journeyTimes_eq staffed answers, List.map_singleton, pathTime_of_path calculated]

end

variable {K : Type} [Field K] [LinearOrder K] [FloorRing K] [Trigonometry K]
  [IsStrictOrderedRing K] {graph : Graph (Exact K)} {cost : CostModel (Exact K)}

/-- With landmarks of a cost model that respects its minima a journey takes the time in the
cell of its two nodes, if ties are even in what is found from its origin. -/
theorem pathTime_agrees {ζ : Type} [BEq ζ] [Hashable ζ] [ZoneName ζ] [LawfulBEq ζ]
    (wellFormed : graph.WellFormed)
    (priced : ∀ link ∈ graph.links, cost.prices link = true)
    (respects : cost.RespectsMinima graph) {central : List (ζ × Nat)}
    (nodup : (central.map Prod.fst).Nodup) {workers : Nat} {departure : K}
    {matrix : Matrix ζ (Exact K)}
    (dense : (make graph cost workers).denseMatrix central (departure : Exact K) = .ok matrix)
    {number : Nat} {selection : Selection} {landmarks : Landmarks (Exact K)}
    (preprocessed : Landmarks.preprocess graph cost number selection = .ok landmarks)
    {origin destination : ζ × Nat} (originMember : origin ∈ central)
    (destinationMember : destination ∈ central) (inside : destination.2 < graph.size)
    (ties : ∀ swept,
      (PathTree.make graph cost).calculate origin.2 (departure : Exact K) .unbounded = .ok swept →
        swept.HasEvenTies graph cost origin.2) :
    (⟨graph, cost, workers, some landmarks⟩ : MatrixBuilder (Exact K)).pathTime departure
      origin.2 destination.2 = matrix.get? origin.1 destination.1 := by
  rcases denseMatrix_cell nodup dense originMember destinationMember with
    ⟨swept, time, sweptDone, reported, cell⟩
  have plain : PathTree.Used graph cost none (PathTree.make graph cost) := .make
  rcases PathTree.calculatePath_agrees wellFormed priced respects preprocessed
      (.withLandmarks landmarks) plain inside sweptDone (ties swept sweptDone) with
    ⟨path, answered, calculated, -, sameTime⟩
  rcases (plain.chart_of_calculate wellFormed priced respects.isNonnegative sweptDone).2.2 _ _
      reported with
    ⟨seconds, rfl⟩
  have found : (⟨graph, cost, workers, some landmarks⟩ : MatrixBuilder (Exact K)).pathTime
      departure origin.2 destination.2 = path.map (·.travelTime) := pathTime_of_path calculated
  rw [found, sameTime, reported, cell]
  rfl

end JourneyTimes.MatrixBuilder
