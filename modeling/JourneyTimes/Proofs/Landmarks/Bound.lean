import JourneyTimes.Landmarks.Selection
import JourneyTimes.Proofs.Search.Cut
import JourneyTimes.Proofs.Search.Sweep

/-!
# Landmarks never overestimate

The costs that a landmark knows are scores of sweeps: along a journey they grow
by no more than the minima of its links, and these are no more than what the
journey costs.  The difference of two such scores therefore is at most the cost
of any journey between their nodes, wherever the landmarks are.
-/

namespace JourneyTimes

variable {K : Type} [Field K] [LinearOrder K] [FloorRing K] [Trigonometry K]

/-- The minima of one cost model bound the costs of another one from below. -/
structure CostModel.IsBoundedBy (cost bound : CostModel (Exact K))
    (graph : Graph (Exact K)) : Prop where
  minima : bound.HasNonnegativeMinima graph
  le : ∀ link ∈ graph.links, ∀ time : K, bound.minimum link ≤ cost.disutility link time

theorem CostModel.gated_isBoundedBy (graph : Graph (Exact ℚ)) :
    CostModel.gated.IsBoundedBy CostModel.gated graph where
  minima link _ := by
    rw [gated]
    dsimp only
    split_ifs <;> exact Exact.finite_nonneg.mpr (by norm_num)
  le link _ time := by
    rw [gated]
    dsimp only
    split_ifs
    · have waiting := le_max_right (43200 - time) 0
      rw [Exact.finite_le_finite]
      linarith
    · exact Exact.finite_le_finite.mpr le_rfl

variable [IsStrictOrderedRing K] {graph : Graph (Exact K)} {cost bound : CostModel (Exact K)}

/-- Along a journey scores grow by no more than the journey takes. -/
theorem Journey.score_le (costsTime : cost.CostsTime graph) (bounded : cost.IsBoundedBy bound graph)
    {direction : Graph.Direction} {score : Nat → Exact K}
    (potential : IsPotential graph bound direction score) {origin node : Nat}
    {departure arrival : Arrival (Exact K)} {links : List (Graph.Link (Exact K))}
    (spent start : K) (departureCost : departure.cost = spent)
    (departureTime : departure.time = start)
    (journey : Journey graph cost origin departure links node arrival) :
    ∃ duration : K, 0 ≤ duration ∧ arrival.cost = ↑(spent + duration) ∧
      arrival.time = ↑(start + duration) ∧
      match direction with
      | .outgoing => score node ≤ score origin + duration
      | .incoming => score origin ≤ score node + duration := by
  induction journey with
  | stay =>
      refine ⟨0, le_rfl, by rw [departureCost, add_zero], by rw [departureTime, add_zero], ?_⟩
      have same := Exact.le_add_zero (potential.nonneg origin)
      cases direction <;> exact same
  | @go links node here link before member leaves usable ih =>
      rcases ih with ⟨duration, nonneg, costEq, timeEq, grown⟩
      rcases Exact.isFinite_iff.mp usable with ⟨more, takes⟩
      rw [timeEq] at takes
      have price := costsTime.disutility_eq link member (start + duration)
      have moreNonneg := costsTime.nonneg link member (start + duration)
      have atMost := bounded.le link member (start + duration)
      rw [takes] at price moreNonneg
      rw [price] at atMost
      rw [Exact.finite_nonneg] at moreNonneg
      have step := Exact.le_add_of_le (potential.nonneg _) (bounded.minima link member)
        (potential.le link member) atMost
      refine ⟨duration + more, add_nonneg nonneg moreNonneg, ?_, ?_, ?_⟩
      · rw [Arrival.along, costEq, timeEq, price, Exact.finite_add_finite, add_assoc]
      · rw [Arrival.along, timeEq, takes, Exact.finite_add_finite, add_assoc]
      · subst leaves
        cases direction with
        | outgoing =>
            exact Exact.le_add_trans (potential.nonneg _) (potential.nonneg _) step grown
        | incoming =>
            rw [add_comm]
            exact Exact.le_add_trans (potential.nonneg _) (potential.nonneg _) grown step

/-- Along a journey scores grow by no more than the journey costs. -/
theorem Journey.score_le_cost (costsTime : cost.CostsTime graph)
    (bounded : cost.IsBoundedBy bound graph) {direction : Graph.Direction}
    {score : Nat → Exact K} (potential : IsPotential graph bound direction score)
    {origin node : Nat} {departure arrival : Arrival (Exact K)}
    {links : List (Graph.Link (Exact K))} (spent start : K) (departureCost : departure.cost = spent)
    (departureTime : departure.time = start)
    (journey : Journey graph cost origin departure links node arrival) {duration : K}
    (arrivalCost : arrival.cost = ↑(spent + duration)) :
    match direction with
    | .outgoing => score node ≤ score origin + duration
    | .incoming => score origin ≤ score node + duration := by
  rcases journey.score_le costsTime bounded potential spent start departureCost departureTime with
    ⟨other, -, otherCost, -, grown⟩
  have same : other = duration := by
    rw [arrivalCost] at otherCost
    simpa using otherCost.symm
  rwa [same] at grown

/-! ## How landmarks are found -/

section

variable {α : Type} [Scalar α] {graph : Graph α} {cost : CostModel α}

/-- The costs from and to a landmark are those of two sweeps. -/
theorem Landmark.of_prepare {node : Nat} {landmark : Landmark α}
    (prepared : Landmark.prepare graph cost node = .ok landmark) :
    landmark.node = node ∧ Sweep.costs graph cost .outgoing node = .ok landmark.costsFrom ∧
      Sweep.costs graph cost .incoming node = .ok landmark.costsTo := by
  rcases bind_eq_ok.mp prepared with ⟨costsFrom, outgoing, prepared⟩
  rcases bind_eq_ok.mp prepared with ⟨costsTo, incoming, prepared⟩
  cases prepared
  exact ⟨rfl, outgoing, incoming⟩

/-- The landmarks are the nodes that have been chosen, in this order, and each of them is
prepared. -/
theorem Landmarks.of_preprocess {number : Nat} {selection : Selection} {landmarks : Landmarks α}
    (preprocessed : Landmarks.preprocess graph cost number selection = .ok landmarks) :
    selection.choose graph cost number = .ok landmarks.nodes ∧
      ∀ landmark ∈ landmarks.members,
        Landmark.prepare graph cost landmark.node = .ok landmark := by
  rcases bind_eq_ok.mp preprocessed with ⟨nodes, chosen, preprocessed⟩
  rcases bind_eq_ok.mp preprocessed with ⟨members, prepared, preprocessed⟩
  cases preprocessed
  have named : List.Forall₂ (· = ·) nodes (members.map (·.node)) := by
    rw [List.forall₂_map_right_iff]
    exact (forall₂_of_mapM_eq_ok prepared).imp fun node landmark done =>
      (Landmark.of_prepare done).1.symm
  rw [List.forall₂_eq_eq_eq] at named
  refine ⟨by rw [chosen, named]; rfl, fun landmark member => ?_⟩
  rcases exists_of_mapM_eq_ok prepared member with ⟨node, -, done⟩
  rwa [(Landmark.of_prepare done).1]

end

/-! ## One landmark -/

/-- The costs from and to a landmark are potentials. -/
structure Landmark.IsSound (graph : Graph (Exact K)) (bound : CostModel (Exact K))
    (landmark : Landmark (Exact K)) : Prop where
  costsFrom : IsPotential graph bound .outgoing landmark.costFrom
  costsTo : IsPotential graph bound .incoming landmark.costTo

theorem Landmark.prepare_isSound (wellFormed : graph.WellFormed)
    (minima : bound.HasNonnegativeMinima graph) {node : Nat} {landmark : Landmark (Exact K)}
    (prepared : Landmark.prepare graph bound node = .ok landmark) :
    landmark.IsSound graph bound := by
  rcases of_prepare prepared with ⟨-, outgoing, incoming⟩
  rcases Sweep.costs_relaxed wellFormed minima outgoing with ⟨fromNonneg, fromLe⟩
  rcases Sweep.costs_relaxed wellFormed minima incoming with ⟨toNonneg, toLe⟩
  exact ⟨⟨fromNonneg, fromLe⟩, ⟨toNonneg, toLe⟩⟩

theorem Landmarks.preprocess_isSound (wellFormed : graph.WellFormed)
    (minima : bound.HasNonnegativeMinima graph) {number : Nat} {selection : Selection}
    {landmarks : Landmarks (Exact K)}
    (preprocessed : Landmarks.preprocess graph bound number selection = .ok landmarks) :
    ∀ landmark ∈ landmarks.members, landmark.IsSound graph bound :=
  fun landmark member =>
    Landmark.prepare_isSound wellFormed minima ((of_preprocess preprocessed).2 landmark member)

/-! ## All landmarks -/

namespace Landmarks

omit [IsStrictOrderedRing K] in
/-- The lower bound is a number that is not negative. -/
theorem lowerBound_finite (landmarks : Landmarks (Exact K)) (origin destination : Nat) :
    ∃ bound : K, 0 ≤ bound ∧ landmarks.lowerBound origin destination = bound := by
  have raised {known : K} (nonneg : 0 ≤ known) (difference : Exact K) :
      ∃ bound : K, 0 ≤ bound ∧ raise ↑known difference = bound := by
    unfold raise
    split_ifs with higher
    · rcases Exact.isFinite_iff.mp higher.1 with ⟨value, rfl⟩
      have less := Exact.finite_lt_finite.mp higher.2
      exact ⟨value, (nonneg.trans_lt less).le, rfl⟩
    · exact ⟨known, nonneg, rfl⟩
  unfold lowerBound
  refine List.foldlRecOn (motive := fun known : Exact K => ∃ bound : K, 0 ≤ bound ∧ known = bound)
    landmarks.members _ ⟨0, le_rfl, rfl⟩ ?_
  intro known holds landmark _
  rcases holds with ⟨value, nonneg, rfl⟩
  rcases raised nonneg (landmark.costFrom destination - landmark.costFrom origin) with
    ⟨first, firstNonneg, firstEq⟩
  rw [raiseBy, firstEq]
  exact raised firstNonneg _

omit [IsStrictOrderedRing K] in
/-- What is no less than zero and than any difference that is a number is no less
than the lower bound. -/
theorem lowerBound_le_of_differences {landmarks : Landmarks (Exact K)} {origin destination : Nat}
    {cost : Exact K} (nonneg : 0 ≤ cost)
    (differences : ∀ landmark ∈ landmarks.members,
      (Scalar.isFinite (landmark.costFrom destination - landmark.costFrom origin) = true →
        landmark.costFrom destination - landmark.costFrom origin ≤ cost) ∧
      (Scalar.isFinite (landmark.costTo origin - landmark.costTo destination) = true →
        landmark.costTo origin - landmark.costTo destination ≤ cost)) :
    landmarks.lowerBound origin destination ≤ cost := by
  have raised {known difference : Exact K} (le : known ≤ cost)
      (differenceLe : Scalar.isFinite difference = true → difference ≤ cost) :
      raise known difference ≤ cost := by
    unfold raise
    split_ifs with higher
    · exact differenceLe higher.1
    · exact le
  unfold lowerBound
  apply List.foldlRecOn (motive := fun known : Exact K => known ≤ cost)
    landmarks.members _ nonneg
  intro known le landmark member
  rcases differences landmark member with ⟨ofFrom, ofTo⟩
  exact raised (raised le ofFrom) ofTo

/-- No journey between two nodes costs less than the lower bound. -/
theorem lowerBound_le {landmarks : Landmarks (Exact K)}
    (sound : ∀ landmark ∈ landmarks.members, landmark.IsSound graph bound)
    (costsTime : cost.CostsTime graph) (bounded : cost.IsBoundedBy bound graph)
    {origin node : Nat} {departure arrival : Arrival (Exact K)}
    {links : List (Graph.Link (Exact K))} (spent start : K) (departureCost : departure.cost = spent)
    (departureTime : departure.time = start)
    (journey : Journey graph cost origin departure links node arrival) :
    ∃ duration : K, arrival.cost = ↑(spent + duration) ∧
      landmarks.lowerBound origin node ≤ duration := by
  rcases journey.costs_time costsTime spent start departureCost departureTime with
    ⟨duration, nonneg, costEq, -⟩
  refine ⟨duration, costEq, lowerBound_le_of_differences (Exact.finite_nonneg.mpr nonneg) ?_⟩
  intro landmark member
  have isSound := sound landmark member
  have grownFrom := journey.score_le_cost costsTime bounded isSound.costsFrom spent start
    departureCost departureTime costEq
  have grownTo := journey.score_le_cost costsTime bounded isSound.costsTo spent start
    departureCost departureTime costEq
  exact ⟨Exact.sub_le_of_le_add (isSound.costsFrom.nonneg _) (isSound.costsFrom.nonneg _) grownFrom,
    Exact.sub_le_of_le_add (isSound.costsTo.nonneg _) (isSound.costsTo.nonneg _) grownTo⟩

end Landmarks

end JourneyTimes
