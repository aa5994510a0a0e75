import JourneyTimes.Proofs.Landmarks.Bound
import JourneyTimes.Proofs.Search.FoundPath
import JourneyTimes.Proofs.Search.Guided

/-!
# Landmarks do not change the answer

A path tree with landmarks looks for a path with a search that has a goal, and
one without landmarks with a search that stops at a target.  Both find the
destination exactly if a journey leads there, and then both report what the best
journey takes.
-/

namespace JourneyTimes

variable {K : Type} [Field K] [LinearOrder K] [FloorRing K] [Trigonometry K]

/-- Some journey to a node has this cost and takes this time, and none costs less
or takes less. -/
structure IsLeastJourney (graph : Graph (Exact K)) (cost : CostModel (Exact K))
    (source : Nat) (start : Exact K) (node : Nat) (price duration : Exact K) : Prop where
  attained : ∃ links arrival,
    Journey graph cost source (Arrival.departure start) links node arrival ∧
      arrival.cost = price ∧ arrival.time - start = duration
  least : ∀ links arrival,
    Journey graph cost source (Arrival.departure start) links node arrival →
      price ≤ arrival.cost ∧ duration ≤ arrival.time - start

theorem IsLeastJourney.unique {graph : Graph (Exact K)}
    {cost : CostModel (Exact K)} {source node : Nat} {start price otherPrice : Exact K}
    {duration otherDuration : Exact K}
    (one : IsLeastJourney graph cost source start node price duration)
    (other : IsLeastJourney graph cost source start node otherPrice otherDuration) :
    price = otherPrice ∧ duration = otherDuration := by
  rcases one.attained with ⟨links, arrival, journey, rfl, rfl⟩
  rcases other.attained with ⟨otherLinks, otherArrival, otherJourney, rfl, rfl⟩
  rcases one.least otherLinks otherArrival otherJourney with ⟨price, duration⟩
  rcases other.least links arrival journey with ⟨otherPrice, otherDuration⟩
  exact ⟨Exact.le_antisymm price otherPrice, Exact.le_antisymm duration otherDuration⟩

namespace PathTree

open Search

variable [IsStrictOrderedRing K] {graph : Graph (Exact K)} {cost : CostModel (Exact K)}
  {landmarks : Option (Landmarks (Exact K))}

/-- The path to a node that has been solved takes what the best journey takes. -/
theorem Answers.path?_isLeast {source : Nat} {start : K} {bounds : SearchBounds (Exact K)}
    {goal : Option Nat} {final : State (Exact K)} {answered : PathTree (Exact K)} {node : Nat}
    (answers : Answers (queryOn graph cost landmarks source start bounds goal) final answered)
    (wellFormed : graph.WellFormed) (inside : source < graph.size)
    (solves : Solves (queryOn graph cost landmarks source start bounds goal) final node)
    (costsTime : cost.CostsTime graph) {path : Path (Exact K)}
    (found : answered.path? node = some path) :
    path.travelTime = path.cost ∧
      IsLeastJourney graph cost source start node path.cost path.travelTime := by
  rcases path?_eq_some found with ⟨isReached, pathCost, pathTime⟩
  have settled := solves.settled_iff.mpr
    ((answers.isReached_iff wellFormed inside solves).mp isReached)
  rcases solves.realised settled with ⟨links, journey⟩
  rcases journey.costs_time costsTime 0 start rfl rfl with ⟨duration, -, costEq, timeEq⟩
  rw [zero_add] at costEq
  have costIs : path.cost = duration := by
    rw [pathCost, answers.label_eq]
    exact costEq
  have timeIs : path.travelTime = duration := by
    have sum : (final.labels.get node).time = ↑(start + duration) := timeEq
    rw [pathTime, answers.label_eq, answers.start_eq, sum]
    exact (Exact.finite_sub_finite ..).trans (congrArg _ (add_sub_cancel_left start duration))
  refine ⟨timeIs.trans costIs.symm, ⟨links, _, journey, ?_, ?_⟩, ?_⟩
  · rw [costIs]
    exact costEq
  · rw [timeIs, timeEq, Exact.finite_sub_finite, add_sub_cancel_left]
  · intro others arrival other
    rcases other.costs_time costsTime 0 start rfl rfl with ⟨longer, -, otherCost, otherTime⟩
    have least : (duration : Exact K) ≤ arrival.cost := costEq ▸ solves.least others arrival other
    rw [otherCost, zero_add] at least
    rw [costIs, timeIs, otherCost, otherTime, zero_add, Exact.finite_sub_finite,
      add_sub_cancel_left]
    exact ⟨least, least⟩

/-- A search for a goal that landmarks guide solves it. -/
theorem run_solves_landmarks (wellFormed : graph.WellFormed)
    (priced : ∀ link ∈ graph.links, cost.prices link = true)
    (costsTime : cost.CostsTime graph) (fifo : cost.IsFirstInFirstOut graph)
    {bound : CostModel (Exact K)} (bounded : cost.IsBoundedBy bound graph)
    {landmarks : Landmarks (Exact K)}
    (sound : ∀ landmark ∈ landmarks.members, landmark.IsSound graph bound)
    {origin : Nat} (originInside : origin < graph.size) (destination : Nat) (start : K)
    {scratch : Scratch (Exact K)} {final : State (Exact K)} (blank : Blank graph.size scratch)
    (ran : run (queryOn graph cost (some landmarks) origin start .unbounded (some destination))
      scratch = .ok final) :
    Solves (queryOn graph cost (some landmarks) origin start .unbounded (some destination))
      final destination := by
  have guided : (queryOn graph cost (some landmarks) origin start .unbounded
      (some destination)).IsGuided destination :=
    { wellFormed
      source_lt := originInside
      start_finite := ⟨start, rfl⟩
      nonneg := costsTime.isNonnegative
      potential_finite := fun node => landmarks.lowerBound_finite node destination
      goal_eq := rfl
      unbounded := rfl }
  exact run_solves_goal guided blank ran priced costsTime fifo
    fun node change arrival links spent departs changeCost changeTime journey =>
      Landmarks.lowerBound_le sound costsTime bounded spent departs changeCost changeTime journey

/-- A path tree with landmarks finds a path exactly if one without landmarks
does, exactly if there is a journey.  Both paths cost and take the same, which no
journey undercuts. -/
theorem calculatePath_landmarks (wellFormed : graph.WellFormed)
    (priced : ∀ link ∈ graph.links, cost.prices link = true)
    (costsTime : cost.CostsTime graph) (fifo : cost.IsFirstInFirstOut graph)
    {bound : CostModel (Exact K)} (bounded : cost.IsBoundedBy bound graph) {number : Nat}
    {selection : Selection} {landmarks : Landmarks (Exact K)}
    (preprocessed : Landmarks.preprocess graph bound number selection = .ok landmarks)
    {guided plain : PathTree (Exact K)} (guidedUsed : Used graph cost (some landmarks) guided)
    (plainUsed : Used graph cost none plain) {origin destination : Nat}
    (originInside : origin < graph.size) (destinationInside : destination < graph.size)
    (start : K) :
    ∃ guidedPath guidedTree plainPath plainTree,
      guided.calculatePath origin destination start = .ok (guidedPath, guidedTree) ∧
      plain.calculatePath origin destination start = .ok (plainPath, plainTree) ∧
      (guidedPath.isSome = true ↔ plainPath.isSome = true) ∧
      (plainPath.isSome = true ↔ ∃ links arrival,
        Journey graph cost origin (Arrival.departure start) links destination arrival) ∧
      ∀ one ∈ guidedPath, ∀ other ∈ plainPath,
        one.cost = other.cost ∧ one.travelTime = other.travelTime ∧
          IsLeastJourney graph cost origin start destination one.cost one.travelTime := by
  have sound := Landmarks.preprocess_isSound wellFormed bounded.minima preprocessed
  have nonneg := costsTime.isNonnegative.isNonnegativeFrom origin ⟨start, rfl⟩
  rcases guidedUsed.calculatePath_guided wellFormed priced originInside destinationInside nonneg
    with ⟨_, final, guidedTree, blank, ran, guidedDone, leads, answers⟩
  have solves := run_solves_landmarks wellFormed priced costsTime fifo bounded sound originInside
    destination start blank ran
  rcases plainUsed.calculatePath_plain wellFormed priced originInside destinationInside
    (start : Exact K) with
    ⟨_, otherFinal, plainTree, otherBlank, otherRan, plainDone, otherLeads, otherAnswers⟩
  have otherSolves : Solves (queryOn graph cost none origin start (.targets [destination]) none)
      otherFinal destination :=
    run_solves_target otherBlank otherRan
      (isPlain_queryOn wellFormed costsTime.isNonnegative originInside start _)
      priced costsTime fifo rfl
  have reached := answers.isReached_iff wellFormed originInside solves
  have otherReached := otherAnswers.isReached_iff wellFormed originInside otherSolves
  refine ⟨guidedTree.path? destination, guidedTree, plainTree.path? destination, plainTree,
    guidedDone, plainDone, ?_, ?_, ?_⟩
  · rw [leads.isSome_path?, otherLeads.isSome_path?]
    exact reached.trans otherReached.symm
  · rw [otherLeads.isSome_path?]
    exact otherReached
  · intro one found other otherFound
    rcases answers.path?_isLeast wellFormed originInside solves costsTime found with ⟨time, best⟩
    rcases otherAnswers.path?_isLeast wellFormed originInside otherSolves costsTime otherFound with
      ⟨otherTime, otherBest⟩
    have same := best.unique otherBest
    exact ⟨same.1, same.2, best⟩

theorem calculatePath_landmarks_triangle :
    ∃ landmarks, Landmarks.preprocess Graph.triangle CostModel.gated 1 .farthest =
        .ok landmarks ∧
      ∃ guidedPath guidedTree plainPath plainTree,
        (withLandmarks Graph.triangle CostModel.gated landmarks).calculatePath
            0 2 (28800 : ℚ) = .ok (guidedPath, guidedTree) ∧
        (make Graph.triangle CostModel.gated).calculatePath 0 2 (28800 : ℚ) =
            .ok (plainPath, plainTree) ∧
        (guidedPath.isSome = true ↔ plainPath.isSome = true) ∧
        (plainPath.isSome = true ↔ ∃ links arrival,
          Journey Graph.triangle CostModel.gated 0 (Arrival.departure (28800 : ℚ))
            links 2 arrival) ∧
        ∀ one ∈ guidedPath, ∀ other ∈ plainPath,
          one.cost = other.cost ∧ one.travelTime = other.travelTime ∧
            IsLeastJourney Graph.triangle CostModel.gated 0 (28800 : ℚ) 2
              one.cost one.travelTime := by
  have succeeds : (Landmarks.preprocess (Graph.triangle : Graph (Exact ℚ)) CostModel.gated 1
      .farthest).toBool = true := by
    decide +kernel
  rcases exists_of_toBool succeeds with ⟨landmarks, preprocessed⟩
  exact ⟨landmarks, preprocessed, calculatePath_landmarks Graph.triangle_wellFormed
    (fun _ _ => rfl) (CostModel.gated_costsTime _) (CostModel.gated_isFirstInFirstOut _)
    (CostModel.gated_isBoundedBy _) preprocessed (.withLandmarks landmarks) .make
    (by decide) (by decide) 28800⟩

end PathTree

end JourneyTimes
