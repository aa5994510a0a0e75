import JourneyTimes.Proofs.Search.Sweep

/-!
# A sweep finds static distances

While a sweep goes on, every score below infinity and every entry of the heap is
the static cost of links that lead to its node.  When it has ended, the scores are
a potential that is zero at the root, so no such links cost less.
-/

namespace JourneyTimes.Sweep

variable {K : Type} [Field K] [LinearOrder K] [FloorRing K] [Trigonometry K]
  {graph : Graph (Exact K)} {cost : CostModel (Exact K)} {direction : Graph.Direction}
  {root : Nat}

/-! ## Scores are attained -/

/-- Some links that lead to a node have a static cost. -/
def IsAttained (graph : Graph (Exact K)) (cost : CostModel (Exact K))
    (direction : Graph.Direction) (root node : Nat) (total : Exact K) : Prop :=
  ∃ links, graph.Leads direction root links node ∧ total = Graph.staticCost cost links

/-- All that a sweep knows is attained, and the root costs nothing. -/
structure Attained (graph : Graph (Exact K)) (cost : CostModel (Exact K))
    (direction : Graph.Direction) (root : Nat) (state : State (Exact K)) : Prop where
  scores : ∀ node, state.score node = .infinity ∨
    IsAttained graph cost direction root node (state.score node)
  entries : ∀ entry ∈ state.waiting.entries,
    IsAttained graph cost direction root entry.node entry.score
  root_le : root < graph.size → state.score root ≤ 0
  visited_size : state.visited.size = graph.size

theorem attained_start (graph : Graph (Exact K)) (cost : CostModel (Exact K))
    (direction : Graph.Direction) (root : Nat) :
    Attained graph cost direction root (start graph root) := by
  have stays : IsAttained graph cost direction root root 0 := ⟨[], .stay .., rfl⟩
  refine ⟨?_, ?_, ?_, Array.size_replicate ..⟩
  · intro node
    rw [score_start]
    split_ifs with isRoot
    · rw [isRoot.1]
      exact .inr stays
    · exact .inl rfl
  · intro entry member
    rw [start, Heap.mem_push] at member
    rcases member with old | rfl
    · exact absurd old (Array.not_mem_empty _)
    · exact stays
  · intro inside
    rw [score_start, if_pos ⟨rfl, inside⟩]
    exact Exact.finite_le_finite.mpr le_rfl

/-- Relaxing a link keeps what is attained. -/
theorem Attained.relax {state : State (Exact K)}
    (attained : Attained graph cost direction root state) {score : Exact K}
    {link : Graph.Link (Exact K)} (member : link ∈ graph.links)
    (atStart : IsAttained graph cost direction root (link.start direction) score) :
    Attained graph cost direction root (Sweep.relax cost direction score state link) := by
  rcases relax_cases cost direction score state link with
    ⟨-, equal⟩ | equal | ⟨-, equal⟩ | ⟨-, less, equal⟩
  · rw [equal]
    exact attained
  · rw [equal]
    exact ⟨attained.scores, attained.entries, attained.root_le, attained.visited_size⟩
  · rw [equal]
    exact attained
  · rw [equal]
    have reached : IsAttained graph cost direction root (link.target direction)
        (score + cost.minimum link) := by
      rcases atStart with ⟨links, leads, rfl⟩
      rcases leads.extend cost member with ⟨longer, longerLeads, longerCost⟩
      exact ⟨longer, longerLeads, longerCost.symm⟩
    refine ⟨?_, ?_, ?_, attained.visited_size⟩
    · intro node
      rw [State.score, State.lower, getD_setIfInBounds]
      split_ifs with isTarget
      · rw [isTarget.1]
        exact .inr reached
      · exact attained.scores node
    · intro entry filed
      rcases Heap.mem_push.mp filed with old | rfl
      · exact attained.entries entry old
      · exact reached
    · intro inside
      rw [State.score, State.lower, getD_setIfInBounds]
      split_ifs with isTarget
      · rw [← isTarget.1] at less
        exact Exact.le_trans (Exact.le_of_lt less) (attained.root_le inside)
      · exact attained.root_le inside

/-- A node that comes out of the heap is entered, and its links are relaxed. -/
theorem Attained.visit_node (wellFormed : graph.WellFormed) {state : State (Exact K)}
    (attained : Attained graph cost direction root state) {first : Heap.Entry (Exact K)}
    {rest : Heap (Exact K)} (popped : state.waiting.pop? = some (first, rest))
    (unvisited : state.isVisited first.node = false) :
    Attained graph cost direction root ((graph.linksAt direction first.node).foldl
      (Sweep.relax cost direction first.score) (state.enter first.node rest)) := by
  have inside := State.lt_of_unvisited attained.visited_size unvisited
  have atFirst := attained.entries first ((Heap.mem_pop? popped).mpr (.inr rfl))
  have entered : Attained graph cost direction root (state.enter first.node rest) :=
    { attained with
      entries := fun entry filed =>
        attained.entries entry ((Heap.mem_pop? popped).mpr (.inl filed))
      visited_size := by simpa [State.enter] using attained.visited_size }
  refine List.foldlRecOn (motive := Attained graph cost direction root) _ _ entered ?_
  intro state attained link member
  rcases (wellFormed.mem_linksAt inside).mp member with ⟨ofGraph, leaves⟩
  exact attained.relax ofGraph (leaves.symm ▸ atFirst)

theorem Attained.visit (wellFormed : graph.WellFormed) (fuel : Nat) {state : State (Exact K)}
    (attained : Attained graph cost direction root state) :
    Attained graph cost direction root (visit graph cost direction fuel state) := by
  induction fuel generalizing state with
  | zero => exact attained
  | succ fuel ih =>
      rw [Sweep.visit]
      cases popped : state.waiting.pop? with
      | none => exact attained
      | some pair =>
          rcases pair with ⟨first, rest⟩
          dsimp only
          split_ifs with visited
          · refine ih { attained with entries := ?_ }
            intro entry filed
            exact attained.entries entry ((Heap.mem_pop? popped).mpr (.inl filed))
          · exact ih (attained.visit_node wellFormed popped (Bool.eq_false_iff.mpr visited))

/-! ## Links with a price -/

/-- A sweep over links that all have a price meets none without. -/
theorem visit_stray (priced : ∀ link ∈ graph.links, cost.prices link = true) (fuel : Nat)
    {state : State (Exact K)} (noStray : state.stray = false) :
    (visit graph cost direction fuel state).stray = false := by
  induction fuel generalizing state with
  | zero => exact noStray
  | succ fuel ih =>
      rw [visit]
      split
      · exact noStray
      · dsimp only
        split_ifs
        · exact ih noStray
        · refine ih (List.foldlRecOn (motive := fun state : State (Exact K) => state.stray = false)
            _ _ noStray ?_)
          intro state noStray link member
          unfold relax
          dsimp only
          split_ifs with visited unpriced cheaper
          · exact noStray
          · rw [priced link (Graph.mem_links_of_mem_linksAt member)] at unpriced
            cases unpriced
          · exact noStray
          · exact noStray

theorem costs_ok (priced : ∀ link ∈ graph.links, cost.prices link = true)
    (direction : Graph.Direction) (root : Nat) :
    ∃ scores, costs graph cost direction root = .ok scores := by
  refine ⟨(run graph cost direction root).scores, ?_⟩
  unfold costs
  dsimp only
  rw [run, visit_stray priced (graph.links.size + 2) rfl]
  rfl

theorem costs_eq {scores : Array (Exact K)}
    (done : costs graph cost direction root = .ok scores) :
    scores = (run graph cost direction root).scores := by
  unfold costs at done
  dsimp only at done
  split_ifs at done
  cases done
  rfl

/-! ## Static distances -/

variable [IsStrictOrderedRing K]

/-- A sweep has a score for every node, and for nothing else. -/
theorem costs_size (wellFormed : graph.WellFormed) (minima : cost.HasNonnegativeMinima graph)
    {scores : Array (Exact K)} (done : costs graph cost direction root = .ok scores) :
    scores.size = graph.size := by
  rw [costs_eq done]
  exact (run_swept wellFormed minima root).1.scores_size

/-- The scores of a sweep from a node are a potential that is zero there. -/
theorem costs_isPotential (wellFormed : graph.WellFormed)
    (minima : cost.HasNonnegativeMinima graph) {scores : Array (Exact K)}
    (done : costs graph cost direction root = .ok scores) :
    IsPotential graph cost direction (scores.getD · Scalar.infinity) := by
  rcases costs_relaxed wellFormed minima done with ⟨nonneg, le⟩
  exact ⟨nonneg, le⟩

theorem costs_root (wellFormed : graph.WellFormed) (minima : cost.HasNonnegativeMinima graph)
    {scores : Array (Exact K)} (done : costs graph cost direction root = .ok scores)
    (inside : root < graph.size) : scores.getD root Scalar.infinity = 0 := by
  have attained := (attained_start graph cost direction root).visit wellFormed
    (graph.links.size + 2)
  have nonneg := (costs_isPotential wellFormed minima done).nonneg root
  rw [costs_eq done] at nonneg ⊢
  exact Exact.le_antisymm (attained.root_le inside) nonneg

/-- The score of a node is the least static cost of links that lead to it. -/
theorem costs_least (wellFormed : graph.WellFormed) (minima : cost.HasNonnegativeMinima graph)
    {scores : Array (Exact K)} (done : costs graph cost direction root = .ok scores)
    (inside : root < graph.size) (node : Nat) :
    (∀ links, graph.Leads direction root links node →
      scores.getD node Scalar.infinity ≤ Graph.staticCost cost links) ∧
    (scores.getD node Scalar.infinity = .infinity ∨
      IsAttained graph cost direction root node (scores.getD node Scalar.infinity)) := by
  constructor
  · intro links leads
    have grown := (costs_isPotential wellFormed minima done).le_staticCost minima leads
    rwa [costs_root wellFormed minima done inside, Exact.zero_add] at grown
  · rw [costs_eq done]
    exact ((attained_start graph cost direction root).visit wellFormed _).scores node

/-- A sweep forwards finds the static distances from its root. -/
theorem costs_outgoing (wellFormed : graph.WellFormed) (minima : cost.HasNonnegativeMinima graph)
    {scores : Array (Exact K)} (done : costs graph cost .outgoing root = .ok scores)
    (inside : root < graph.size) (node : Nat) :
    graph.IsStaticDistance cost root node (scores.getD node Scalar.infinity) := by
  rcases costs_least wellFormed minima done inside node with ⟨le, attained⟩
  exact ⟨le, attained⟩

/-- A sweep backwards finds the static distances to its root. -/
theorem costs_incoming (wellFormed : graph.WellFormed) (minima : cost.HasNonnegativeMinima graph)
    {scores : Array (Exact K)} (done : costs graph cost .incoming root = .ok scores)
    (inside : root < graph.size) (node : Nat) :
    graph.IsStaticDistance cost node root (scores.getD node Scalar.infinity) := by
  rcases costs_least wellFormed minima done inside node with ⟨le, attained⟩
  exact ⟨le, attained⟩

end JourneyTimes.Sweep
