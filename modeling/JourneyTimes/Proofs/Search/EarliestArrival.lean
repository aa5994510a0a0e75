import JourneyTimes.Proofs.Search.Solved

/-!
# Path trees find the earliest arrivals

Where the cost of a link is the time that it takes and nobody arrives earlier by
leaving later, a search without bounds reports the nodes that journeys lead to,
with the earliest arrival at each of them.
-/

namespace JourneyTimes

variable {K : Type} [Field K] [LinearOrder K] [FloorRing K] [Trigonometry K]

/-- A journey arrives at a node at a time, and none arrives earlier. -/
structure IsEarliestArrival (graph : Graph (Exact K)) (cost : CostModel (Exact K))
    (source : Nat) (start : Exact K) (node : Nat) (time : Exact K) : Prop where
  attained : ∃ links arrival,
    Journey graph cost source (Arrival.departure start) links node arrival ∧
      arrival.time = time
  least : ∀ links arrival,
    Journey graph cost source (Arrival.departure start) links node arrival →
      time ≤ arrival.time

variable [IsStrictOrderedRing K]

namespace PathTree

variable {graph : Graph (Exact K)} {cost : CostModel (Exact K)}
  {landmarks : Option (Landmarks (Exact K))} {tree : PathTree (Exact K)}

/-- The label of the earliest arrival says when it is, and costs the time that
it takes. -/
theorem isEarliestArrival_label (costsTime : cost.CostsTime graph) {source : Nat} {start : K}
    {bounds : SearchBounds (Exact K)} {goal : Option Nat} {final : Search.State (Exact K)}
    {node : Nat}
    (solves : Search.Solves (queryOn graph cost landmarks source start bounds goal) final node)
    (settled : (final.labels.get node).settled = true) :
    IsEarliestArrival graph cost source start node (final.labels.get node).time ∧
      (final.labels.get node).cost = (final.labels.get node).time - start := by
  rcases solves.realised settled with ⟨links, journey⟩
  rcases journey.costs_time costsTime 0 start rfl rfl with ⟨duration, nonneg, costEq, timeEq⟩
  rw [Label.arrival, zero_add] at costEq
  rw [Label.arrival] at timeEq
  dsimp only at costEq timeEq
  refine ⟨⟨⟨links, _, journey, rfl⟩, ?_⟩, ?_⟩
  · intro others arrival other
    rcases other.costs_time costsTime 0 start rfl rfl with ⟨otherDuration, -, otherCost, otherTime⟩
    have cheapest := solves.least others arrival other
    rw [costEq, otherCost, zero_add, Exact.finite_le_finite] at cheapest
    rw [timeEq, otherTime, Exact.finite_le_finite]
    linarith
  · rw [costEq, timeEq, Exact.finite_sub_finite, add_sub_cancel_left]

/-- A search without bounds reports a node exactly if a journey leads to it, at
the time of the earliest arrival there, with the cost of the time it takes. -/
theorem calculate_earliestArrival (wellFormed : graph.WellFormed)
    (priced : ∀ link ∈ graph.links, cost.prices link = true)
    (costsTime : cost.CostsTime graph) (fifo : cost.IsFirstInFirstOut graph)
    (used : Used graph cost landmarks tree) {source : Nat} (inside : source < graph.size)
    (start : K) :
    ∃ answered, tree.calculate source start .unbounded = .ok answered ∧ ∀ node,
      ((answered.time? node).isSome = true ↔ ∃ links arrival,
        Journey graph cost source (Arrival.departure start) links node arrival) ∧
      ∀ time, answered.time? node = some time →
        IsEarliestArrival graph cost source start node time ∧
          answered.cost? node = some (time - start) := by
  rcases used.calculate_ok wellFormed priced inside (start : Exact K) .unbounded nofun with
    ⟨_, final, answered, blank, ran, done, answers⟩
  have plain : (queryOn graph cost landmarks source start .unbounded none).IsPlain :=
    isPlain_queryOn wellFormed costsTime.isNonnegative inside start .unbounded
  refine ⟨answered, done, fun node => ?_⟩
  have solves := Search.run_solves blank ran plain priced costsTime fifo rfl node
  have reached := answers.isReached_iff wellFormed inside solves
  constructor
  · refine Iff.trans ?_ reached
    rw [time?]
    split_ifs with isReached <;> simp [isReached]
  · intro time timed
    rw [time?] at timed
    split_ifs at timed with isReached
    cases timed
    have settled := solves.settled_iff.mpr (reached.mp isReached)
    rw [cost?, if_pos isReached, answers.label_eq]
    rcases isEarliestArrival_label costsTime solves settled with ⟨earliest, costEq⟩
    exact ⟨earliest, congrArg some costEq⟩

theorem calculate_earliestArrival_triangle :
    ∃ answered, (make Graph.triangle CostModel.gated).calculate 0 (28800 : ℚ) .unbounded =
        .ok answered ∧ ∀ node,
      ((answered.time? node).isSome = true ↔ ∃ links arrival,
        Journey Graph.triangle CostModel.gated 0 (Arrival.departure (28800 : ℚ))
          links node arrival) ∧
      ∀ time, answered.time? node = some time →
        IsEarliestArrival Graph.triangle CostModel.gated 0 (28800 : ℚ) node time ∧
          answered.cost? node = some (time - (28800 : ℚ)) :=
  calculate_earliestArrival Graph.triangle_wellFormed (fun _ _ => rfl)
    (CostModel.gated_costsTime _) (CostModel.gated_isFirstInFirstOut _) .make (by decide) 28800

end PathTree

end JourneyTimes
