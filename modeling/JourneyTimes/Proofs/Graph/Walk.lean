import JourneyTimes.Cost.Model
import JourneyTimes.Proofs.Graph.WellFormed
import JourneyTimes.Proofs.Scalar.Exact

/-!
# Walks and static distances

A walk follows links from node to node, whenever that may be.  If every link costs
its minimum, the least that a walk between two nodes costs is their static
distance; it is infinite if there is no walk.

Scores that grow by no more than the minimum along every link are a potential.
Along a walk they grow by no more than its static cost, so a potential that is
zero at one node bounds the distances from it, or to it, from below.
-/

namespace JourneyTimes

namespace Graph

section

variable {α : Type}

/-- Links that lead from one node to another. -/
inductive Walk (graph : Graph α) : Nat → List (Link α) → Nat → Prop where
  | stay (node : Nat) : Walk graph node [] node
  | go {link : Link α} {links : List (Link α)} {node : Nat} (member : link ∈ graph.links)
      (onwards : Walk graph link.destination links node) :
      Walk graph link.origin (link :: links) node

theorem Walk.append {graph : Graph α} {origin middle node : Nat} {links rest : List (Link α)}
    (first : graph.Walk origin links middle) (second : graph.Walk middle rest node) :
    graph.Walk origin (links ++ rest) node := by
  induction first with
  | stay => exact second
  | go member _ ih => exact .go member (ih second)

theorem Walk.mem_links {graph : Graph α} {origin node : Nat} {links : List (Link α)}
    (walk : graph.Walk origin links node) : ∀ link ∈ links, link ∈ graph.links := by
  induction walk with
  | stay => simp
  | go member _ ih => simpa using ⟨member, ih⟩

/-- A walk to another node follows some link. -/
theorem Walk.exists_link {graph : Graph α} {origin node : Nat} {links : List (Link α)}
    (walk : graph.Walk origin links node) (apart : origin ≠ node) :
    ∃ link ∈ links, link ∈ graph.links := by
  cases walk with
  | stay => exact absurd rfl apart
  | go member _ => exact ⟨_, List.mem_cons_self .., member⟩

/-- The links are a walk from the root to a node, or the other way if links are
followed backwards. -/
def Leads (graph : Graph α) (direction : Direction) (root : Nat) (links : List (Link α))
    (node : Nat) : Prop :=
  match direction with
  | .outgoing => graph.Walk root links node
  | .incoming => graph.Walk node links root

theorem Leads.stay (graph : Graph α) (direction : Direction) (root : Nat) :
    graph.Leads direction root [] root := by
  cases direction <;> exact Walk.stay root

variable [Scalar α]

/-- The shuttle goes from each of its nodes to each of them. -/
theorem shuttle_walk {origin destination : Nat} (originInside : origin < 2)
    (destinationInside : destination < 2) :
    ∃ links, (shuttle : Graph α).Walk origin links destination := by
  have first : (shuttle : Graph α).links[0]? = some _ := rfl
  have second : (shuttle : Graph α).links[1]? = some _ := rfl
  have there : ∃ links, (shuttle : Graph α).Walk 0 links 1 :=
    ⟨_, .go (Array.mem_of_getElem? first) (.stay 1)⟩
  have back : ∃ links, (shuttle : Graph α).Walk 1 links 0 :=
    ⟨_, .go (Array.mem_of_getElem? second) (.stay 0)⟩
  rcases Nat.le_one_iff_eq_zero_or_eq_one.mp (Nat.le_of_lt_succ originInside) with rfl | rfl <;>
    rcases Nat.le_one_iff_eq_zero_or_eq_one.mp (Nat.le_of_lt_succ destinationInside) with rfl | rfl
  · exact ⟨[], .stay 0⟩
  · exact there
  · exact back
  · exact ⟨[], .stay 1⟩

/-- What links cost if each of them costs its minimum. -/
def staticCost (cost : CostModel α) (links : List (Link α)) : α :=
  (links.map cost.minimum).sum

/-- What links cost that are entered at given times. -/
def replayedCost (cost : CostModel α) (entries : List (Link α × α)) : α :=
  (entries.map fun (link, time) => cost.disutility link time).sum

end

variable {K : Type} [Field K] [LinearOrder K] [FloorRing K] [Trigonometry K]
  {graph : Graph (Exact K)} {cost : CostModel (Exact K)}

/-- A walk goes on along a link that starts where it ends. -/
theorem Leads.extend (cost : CostModel (Exact K)) {direction : Direction} {root : Nat}
    {links : List (Link (Exact K))} {link : Link (Exact K)}
    (leads : graph.Leads direction root links (link.start direction))
    (member : link ∈ graph.links) :
    ∃ longer, graph.Leads direction root longer (link.target direction) ∧
      staticCost cost longer = staticCost cost links + cost.minimum link := by
  cases direction with
  | outgoing =>
      refine ⟨links ++ [link], leads.append (.go member (.stay _)), ?_⟩
      rw [staticCost, List.map_append, List.sum_append, List.map_singleton, List.sum_singleton,
        staticCost]
  | incoming => exact ⟨link :: links, .go member leads, Exact.add_comm ..⟩

/-- The least static cost of the walks from one node to another, and infinity if
there is none. -/
structure IsStaticDistance (graph : Graph (Exact K)) (cost : CostModel (Exact K))
    (origin destination : Nat) (distance : Exact K) : Prop where
  le : ∀ links, graph.Walk origin links destination → distance ≤ staticCost cost links
  attained : distance = .infinity ∨
    ∃ links, graph.Walk origin links destination ∧ distance = staticCost cost links

theorem IsStaticDistance.unique {origin destination : Nat} {distance other : Exact K}
    (first : graph.IsStaticDistance cost origin destination distance)
    (second : graph.IsStaticDistance cost origin destination other) : distance = other := by
  rcases first.attained with rfl | ⟨links, walk, rfl⟩ <;>
    rcases second.attained with rfl | ⟨others, otherWalk, rfl⟩
  · rfl
  · exact (Exact.eq_infinity_of_le (first.le others otherWalk)).symm
  · exact Exact.eq_infinity_of_le (second.le links walk)
  · exact Exact.le_antisymm (first.le others otherWalk) (second.le links walk)

end Graph

variable {K : Type} [Field K] [LinearOrder K] [FloorRing K] [Trigonometry K]
  {graph : Graph (Exact K)} {cost : CostModel (Exact K)}

/-- The minimum of no link is negative. -/
def CostModel.HasNonnegativeMinima (cost : CostModel (Exact K)) (graph : Graph (Exact K)) :
    Prop :=
  ∀ link ∈ graph.links, 0 ≤ cost.minimum link

/-- Along no link the scores grow by more than its minimum. -/
structure IsPotential (graph : Graph (Exact K)) (bound : CostModel (Exact K))
    (direction : Graph.Direction) (score : Nat → Exact K) : Prop where
  nonneg : ∀ node, 0 ≤ score node
  le : ∀ link ∈ graph.links, score (link.target direction) ≤
    score (link.start direction) + bound.minimum link

variable [IsStrictOrderedRing K]

theorem CostModel.HasNonnegativeMinima.staticCost_nonneg (minima : cost.HasNonnegativeMinima graph)
    {links : List (Graph.Link (Exact K))} (members : ∀ link ∈ links, link ∈ graph.links) :
    0 ≤ Graph.staticCost cost links := by
  induction links with
  | nil => exact Exact.finite_nonneg.mpr le_rfl
  | cons link links ih =>
      rcases List.forall_mem_cons.mp members with ⟨member, rest⟩
      exact Exact.add_nonneg (minima link member) (ih rest)

/-- Links cost no less than their minima, if each of them is entered at a time at
which it does not. -/
theorem CostModel.HasNonnegativeMinima.staticCost_le (minima : cost.HasNonnegativeMinima graph)
    {entries : List (Graph.Link (Exact K) × Exact K)}
    (members : ∀ link ∈ entries.map Prod.fst, link ∈ graph.links)
    (atLeast : ∀ entry ∈ entries, cost.minimum entry.1 ≤ cost.disutility entry.1 entry.2) :
    Graph.staticCost cost (entries.map Prod.fst) ≤ Graph.replayedCost cost entries := by
  induction entries with
  | nil => exact Exact.finite_le_finite.mpr le_rfl
  | cons entry entries ih =>
      rcases List.forall_mem_cons.mp members with ⟨member, rest⟩
      rcases List.forall_mem_cons.mp atLeast with ⟨first, others⟩
      exact Exact.add_le_add_of_nonneg (minima _ member) (minima.staticCost_nonneg rest) first
        (ih rest others)

/-- Links have no greater static cost where no minimum is greater. -/
theorem CostModel.HasNonnegativeMinima.staticCost_mono (minima : cost.HasNonnegativeMinima graph)
    {other : CostModel (Exact K)}
    (le : ∀ link ∈ graph.links, cost.minimum link ≤ other.minimum link)
    {links : List (Graph.Link (Exact K))} (members : ∀ link ∈ links, link ∈ graph.links) :
    Graph.staticCost cost links ≤ Graph.staticCost other links := by
  induction links with
  | nil => exact Exact.finite_le_finite.mpr le_rfl
  | cons link links ih =>
      rcases List.forall_mem_cons.mp members with ⟨member, rest⟩
      exact Exact.add_le_add_of_nonneg (minima link member) (minima.staticCost_nonneg rest)
        (le link member) (ih rest)

/-- From one end of a walk to the other a potential grows by no more than the
static cost of the walk. -/
theorem IsPotential.le_staticCost {direction : Graph.Direction} {score : Nat → Exact K}
    (potential : IsPotential graph cost direction score)
    (minima : cost.HasNonnegativeMinima graph) {root node : Nat}
    {links : List (Graph.Link (Exact K))} (leads : graph.Leads direction root links node) :
    score node ≤ score root + Graph.staticCost cost links := by
  cases direction with
  | outgoing =>
      induction leads with
      | stay node => exact Exact.le_add_zero (potential.nonneg node)
      | @go link links node member onwards ih =>
          have rest := minima.staticCost_nonneg onwards.mem_links
          calc score node
              ≤ score link.destination + Graph.staticCost cost links := ih
            _ ≤ (score link.origin + cost.minimum link) + Graph.staticCost cost links :=
                Exact.add_le_add_of_nonneg (potential.nonneg _) rest (potential.le link member)
                  (Exact.le_self_of_le rest)
            _ = score link.origin + (cost.minimum link + Graph.staticCost cost links) :=
                Std.Associative.assoc ..
  | incoming =>
      induction leads with
      | stay node => exact Exact.le_add_zero (potential.nonneg node)
      | @go link links root member onwards ih =>
          have price := minima link member
          calc score link.origin
              ≤ score link.destination + cost.minimum link := potential.le link member
            _ ≤ (score root + Graph.staticCost cost links) + cost.minimum link :=
                Exact.add_le_add_of_nonneg (potential.nonneg _) price ih
                  (Exact.le_self_of_le price)
            _ = score root + (Graph.staticCost cost links + cost.minimum link) :=
                Std.Associative.assoc ..
            _ = score root + (cost.minimum link + Graph.staticCost cost links) := by
                rw [Exact.add_comm (cost.minimum link)]

end JourneyTimes
