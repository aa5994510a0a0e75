import JourneyTimes.Proofs.Search.Cut
import JourneyTimes.Proofs.Search.Distance

/-!
# Sweeps in both directions

A sweep that follows links forwards finds what the cheapest walks from its root cost, and one
that follows them backwards what the cheapest walks to it cost.  A walk may have any number of
links, and some of them may have infinite minima; infinity otherwise says that there is no walk.

Both sweeps are about the same walks.  So the cost from one node to another is the same
whether it is looked up in the forward sweep from the one or in the backward sweep from the
other, however different the costs are there and back.
-/

namespace JourneyTimes

variable {K : Type} [Field K] [LinearOrder K] [FloorRing K] [Trigonometry K]
  {graph : Graph (Exact K)} {cost : CostModel (Exact K)}

/-- What the cheapest walk from one node to another costs, and infinity if there is no walk
at all. -/
structure Graph.IsCheapest (graph : Graph (Exact K)) (cost : CostModel (Exact K))
    (origin destination : Nat) (least : Exact K) : Prop where
  le : ∀ links, graph.Walk origin links destination → least ≤ Graph.staticCost cost links
  attained : (∃ links, graph.Walk origin links destination ∧
      Graph.staticCost cost links = least) ∨
    least = .infinity ∧ ¬ ∃ links, graph.Walk origin links destination

/-- A static distance is infinite only if no walk costs less than infinity. -/
theorem Graph.IsStaticDistance.isCheapest {origin destination : Nat} {distance : Exact K}
    (isDistance : graph.IsStaticDistance cost origin destination distance) :
    graph.IsCheapest cost origin destination distance where
  le := isDistance.le
  attained := by
    rcases isDistance.attained with rfl | ⟨links, walk, rfl⟩
    · by_cases walks : ∃ links, graph.Walk origin links destination
      · rcases walks with ⟨links, walk⟩
        exact .inl ⟨links, walk, Exact.eq_infinity_of_le (isDistance.le links walk)⟩
      · exact .inr ⟨rfl, walks⟩
    · exact .inl ⟨links, walk, rfl⟩

namespace Sweep

variable [IsStrictOrderedRing K]

theorem costs_score (wellFormed : graph.WellFormed) (minima : cost.HasNonnegativeMinima graph)
    {direction : Graph.Direction} {root : Nat} {scores : Array (Exact K)}
    (done : costs graph cost direction root = .ok scores) {node : Nat}
    (inside : node < graph.size) :
    scores[node]? = some (scores.getD node Scalar.infinity) := by
  rw [← costs_size wellFormed minima done] at inside
  rw [Array.getD_eq_getD_getElem?, Array.getElem?_eq_getElem inside]
  rfl

/-- The two sweeps from a root find what the cheapest walks there and back cost.  The sweep
backwards says of a node what the sweep forwards from that node says of the root. -/
theorem costs_both_ways (wellFormed : graph.WellFormed)
    (minima : cost.HasNonnegativeMinima graph)
    (priced : ∀ link ∈ graph.links, cost.prices link = true) {root : Nat}
    (inside : root < graph.size) :
    ∃ costsFrom costsTo, costs graph cost .outgoing root = .ok costsFrom ∧
      costs graph cost .incoming root = .ok costsTo ∧
      costsFrom.size = graph.size ∧ costsTo.size = graph.size ∧
      ∀ node < graph.size, ∃ there back others,
        costsFrom[node]? = some there ∧ graph.IsCheapest cost root node there ∧
        costsTo[node]? = some back ∧ graph.IsCheapest cost node root back ∧
        costs graph cost .outgoing node = .ok others ∧ others[root]? = some back := by
  rcases costs_ok priced .outgoing root with ⟨costsFrom, doneFrom⟩
  rcases costs_ok priced .incoming root with ⟨costsTo, doneTo⟩
  refine ⟨costsFrom, costsTo, doneFrom, doneTo, costs_size wellFormed minima doneFrom,
    costs_size wellFormed minima doneTo, ?_⟩
  intro node nodeInside
  rcases costs_ok priced .outgoing node with ⟨others, doneOthers⟩
  have there := costs_outgoing wellFormed minima doneFrom inside node
  have back := costs_incoming wellFormed minima doneTo inside node
  have again := costs_outgoing wellFormed minima doneOthers nodeInside root
  refine ⟨_, _, others, costs_score wellFormed minima doneFrom nodeInside, there.isCheapest,
    costs_score wellFormed minima doneTo nodeInside, back.isCheapest, doneOthers, ?_⟩
  rw [back.unique again]
  exact costs_score wellFormed minima doneOthers inside

/-- On the triangle one gets from the first node to the last, but not back. -/
theorem costs_both_ways_triangle :
    ∃ costsFrom costsTo,
      costs Graph.triangle CostModel.gated .outgoing 0 = .ok costsFrom ∧
      costs Graph.triangle CostModel.gated .incoming 0 = .ok costsTo ∧
      costsFrom[2]? = some ((20 : ℚ) : Exact ℚ) ∧ costsTo[2]? = some .infinity ∧
      Graph.triangle.IsCheapest CostModel.gated 0 2 (20 : ℚ) ∧
      Graph.triangle.IsCheapest CostModel.gated 2 0 .infinity := by
  have minima : CostModel.gated.HasNonnegativeMinima Graph.triangle := by
    intro link _
    rw [CostModel.gated]
    dsimp only
    split_ifs <;> exact Exact.finite_nonneg.mpr (by norm_num)
  rcases costs_both_ways Graph.triangle_wellFormed minima (fun _ _ => rfl)
      (by decide : 0 < 3) with
    ⟨costsFrom, costsTo, doneFrom, doneTo, -, -, cheapest⟩
  rcases cheapest 2 (by decide) with
    ⟨there, back, -, thereEq, thereLeast, backEq, backLeast, -, -⟩
  have foundFrom : (costs Graph.triangle CostModel.gated .outgoing 0).toOption.bind (·[2]?) =
      some ((20 : ℚ) : Exact ℚ) := by
    decide +kernel
  have foundTo : (costs Graph.triangle CostModel.gated .incoming 0).toOption.bind (·[2]?) =
      some .infinity := by
    decide +kernel
  rw [doneFrom] at foundFrom
  rw [doneTo] at foundTo
  obtain rfl : there = (20 : ℚ) := Option.some.inj (thereEq.symm.trans foundFrom)
  obtain rfl : back = .infinity := Option.some.inj (backEq.symm.trans foundTo)
  exact ⟨costsFrom, costsTo, doneFrom, doneTo, thereEq, backEq, thereLeast, backLeast⟩

end Sweep

end JourneyTimes
