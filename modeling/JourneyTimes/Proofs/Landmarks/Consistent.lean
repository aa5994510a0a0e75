import JourneyTimes.Proofs.Landmarks.Distance

/-!
# Landmark bounds are consistent

Along a link the lower bound falls by no more than the minimum of the link, if the
goal can be reached from the end of the link along links of finite minimum.

A term of a landmark says nothing if one of its two costs is infinite.  A term of
the costs from the landmark that says something at the origin of a link also does
at its destination.  For the costs to the landmark this is where the goal has to be
reached: otherwise the landmark may know nothing about the destination, and the
bound there may drop to zero.
-/

namespace JourneyTimes

/-- A walk leads from one node to another along links of finite minimum. -/
def Graph.HasFiniteWalk {α : Type} [Scalar α] (graph : Graph α) (cost : CostModel α)
    (origin destination : Nat) : Prop :=
  ∃ links, graph.Walk origin links destination ∧
    ∀ link ∈ links, Scalar.isFinite (cost.minimum link) = true

namespace Graph.HasFiniteWalk

section

variable {α : Type} [Scalar α] {graph : Graph α} {cost : CostModel α}

theorem refl (graph : Graph α) (cost : CostModel α) (node : Nat) :
    graph.HasFiniteWalk cost node node :=
  ⟨[], .stay node, fun _ member => absurd member List.not_mem_nil⟩

theorem go {link : Link α} {goal : Nat} (member : link ∈ graph.links)
    (finite : Scalar.isFinite (cost.minimum link) = true)
    (onwards : graph.HasFiniteWalk cost link.destination goal) :
    graph.HasFiniteWalk cost link.origin goal := by
  rcases onwards with ⟨links, walk, allFinite⟩
  exact ⟨link :: links, .go member walk, List.forall_mem_cons.mpr ⟨finite, allFinite⟩⟩

end

variable {K : Type} [Field K] [LinearOrder K] [FloorRing K] [Trigonometry K]
  {graph : Graph (Exact K)} {cost : CostModel (Exact K)}

theorem staticCost_finite {links : List (Link (Exact K))}
    (finite : ∀ link ∈ links, Scalar.isFinite (cost.minimum link) = true) :
    ∃ total : K, staticCost cost links = total := by
  induction links with
  | nil => exact ⟨0, rfl⟩
  | cons link links ih =>
      rcases List.forall_mem_cons.mp finite with ⟨first, rest⟩
      rcases Exact.isFinite_iff.mp first with ⟨value, valueEq⟩
      rcases ih rest with ⟨total, totalEq⟩
      refine ⟨value + total, ?_⟩
      rw [staticCost, List.map_cons, List.sum_cons, valueEq]
      exact (congrArg _ totalEq).trans (Exact.finite_add_finite value total)

variable [IsStrictOrderedRing K]

/-- A landmark that the goal reaches is reached by all nodes that reach the goal. -/
theorem costTo_finite {origin goal : Nat} (reaches : graph.HasFiniteWalk cost origin goal)
    (minima : cost.HasNonnegativeMinima graph) {score : Nat → Exact K}
    (potential : IsPotential graph cost .incoming score) {known : K}
    (atGoal : score goal = known) : ∃ value : K, score origin = value := by
  rcases reaches with ⟨links, walk, finite⟩
  rcases staticCost_finite finite with ⟨total, totalEq⟩
  have back : graph.Leads .incoming goal links origin := walk
  have atMost := potential.le_staticCost minima back
  rw [atGoal, totalEq, Exact.finite_add_finite] at atMost
  have below := Exact.lt_of_le_of_lt atMost (Exact.finite_lt_infinity (known + total))
  rcases Exact.finite_of_nonneg_of_lt (potential.nonneg origin) below with ⟨value, -, valueEq⟩
  exact ⟨value, valueEq⟩

end Graph.HasFiniteWalk

variable {K : Type} [Field K] [LinearOrder K] [FloorRing K] [Trigonometry K]

/-- A difference is a number only if both of its terms are. -/
theorem Exact.finite_of_isFinite_sub {left right : Exact K}
    (finite : Scalar.isFinite (left - right) = true) :
    ∃ high low : K, left = high ∧ right = low := by
  cases left <;> cases right <;> first | exact ⟨_, _, rfl, rfl⟩ | cases finite

variable [IsStrictOrderedRing K] {graph : Graph (Exact K)} {cost : CostModel (Exact K)}
  {landmarks : Landmarks (Exact K)}

namespace Landmarks

/-- Along a link to a node that reaches the goal the lower bound falls by no more than
the minimum of the link. -/
theorem lowerBound_le_minimum_add
    (sound : ∀ landmark ∈ landmarks.members, landmark.IsSound graph cost)
    (minima : cost.HasNonnegativeMinima graph) {link : Graph.Link (Exact K)}
    (member : link ∈ graph.links) {goal : Nat}
    (reaches : graph.HasFiniteWalk cost link.destination goal) :
    landmarks.lowerBound link.origin goal ≤
      cost.minimum link + landmarks.lowerBound link.destination goal := by
  rcases landmarks.lowerBound_finite link.destination goal with ⟨ahead, aheadNonneg, aheadEq⟩
  rcases Exact.nonneg_iff.mp (minima link member) with endless | ⟨step, stepNonneg, stepEq⟩
  · rcases landmarks.lowerBound_finite link.origin goal with ⟨here, -, hereEq⟩
    rw [endless, aheadEq, hereEq, Exact.infinity_add_finite]
    exact Exact.le_infinity here
  · rw [stepEq, aheadEq, Exact.finite_add_finite]
    refine lowerBound_le_of_differences
      (Exact.finite_nonneg.mpr (add_nonneg stepNonneg aheadNonneg)) ?_
    intro landmark isMember
    rcases sound landmark isMember with ⟨costsFrom, costsTo⟩
    -- What the landmark says at the destination is at most the lower bound there.
    have reached {value : K} (differs : landmark.costFrom goal -
          landmark.costFrom link.destination = value ∨
        landmark.costTo link.destination - landmark.costTo goal = value) : value ≤ ahead := by
      have atMost := le_lowerBound isMember differs
      rwa [aheadEq, Exact.finite_le_finite] at atMost
    constructor
    · intro finite
      rcases Exact.finite_of_isFinite_sub finite with ⟨atGoal, atOrigin, goalEq, originEq⟩
      have grown : landmark.costFrom link.destination ≤
          landmark.costFrom link.origin + cost.minimum link := costsFrom.le link member
      rw [originEq, stepEq, Exact.finite_add_finite] at grown
      have below := Exact.lt_of_le_of_lt grown (Exact.finite_lt_infinity (atOrigin + step))
      rcases Exact.finite_of_nonneg_of_lt (costsFrom.nonneg _) below with
        ⟨between, -, betweenEq⟩
      have bounded := reached (.inl (by rw [goalEq, betweenEq, Exact.finite_sub_finite]))
      rw [betweenEq, Exact.finite_le_finite] at grown
      rw [goalEq, originEq, Exact.finite_sub_finite, Exact.finite_le_finite]
      linarith
    · intro finite
      rcases Exact.finite_of_isFinite_sub finite with ⟨atOrigin, atGoal, originEq, goalEq⟩
      rcases reaches.costTo_finite minima costsTo goalEq with ⟨between, betweenEq⟩
      have grown : landmark.costTo link.origin ≤
          landmark.costTo link.destination + cost.minimum link := costsTo.le link member
      have bounded := reached (.inr (by rw [goalEq, betweenEq, Exact.finite_sub_finite]))
      rw [originEq, betweenEq, stepEq, Exact.finite_add_finite, Exact.finite_le_finite] at grown
      rw [originEq, goalEq, Exact.finite_sub_finite, Exact.finite_le_finite]
      linarith

end Landmarks

end JourneyTimes
