import JourneyTimes.Proofs.Search.Forest
import JourneyTimes.Proofs.Search.Solved

/-!
# Searches that return to settled nodes come to an end

A search with a goal may settle a node again when it finds a better way to it, so no node is
ever done with.  But every label is that of a trail, and once a node has been settled along
a trail its label never is that of this trail while it waits, for only a cheaper one puts it back.
A graph has only so many trails.
-/

namespace JourneyTimes.Search

open Scalar (Accumulates)

variable {α : Type} [Scalar α] {query : Query α} {goal : Nat}

/-- What is asked of a search that has a goal and no bounds to come to its end. -/
structure Query.Reopens (query : Query α) (goal : Nat) : Prop extends query.IsWellPosed where
  goal_eq : query.goal = some goal
  keepsAll : query.KeepsAll

section Paid

variable [DecidableEq α]

/-- Nodes have been settled along some trails, and those that wait have found
better ones since. -/
structure Paid (query : Query α) (state : State α) (seen : Finset (List (Graph.Link α))) :
    Prop where
  subset : seen ⊆ ways query.graph.links.toList.toFinset query.graph.size
  better : ∀ way ∈ seen, ∃ node arrival,
    Journey query.graph query.cost query.source (Arrival.departure query.start)
      way node arrival ∧
    (state.labels.get node).cost ≤ arrival.cost ∧
    ((state.labels.get node).settled = false → (state.labels.get node).cost < arrival.cost)

variable [Accumulates α]

/-- The trail of a node that waits has not been paid for. -/
theorem Paid.not_mem {state : State α} {seen : Finset (List (Graph.Link α))}
    (paid : Paid query state seen) {links : List (Graph.Link α)} {node : Nat}
    (waits : IsWaiting query state node)
    (trail : Trail query state links node (state.labels.get node).arrival) : links ∉ seen := by
  intro member
  rcases paid.better links member with ⟨other, arrival, journey, -, less⟩
  rcases journey.unique trail.journey with ⟨rfl, rfl⟩
  exact Accumulates.lt_irrefl _ (less waits.2.1)

/-- Settling a node pays for its trail. -/
protected theorem Paid.expand {state : State α} {seen : Finset (List (Graph.Link α))}
    (paid : Paid query state seen) (forest : Forest query state) (posed : query.IsWellPosed)
    {node : Nat} {rest : Frontier α} (popped : state.frontier.pop? = some (node, rest))
    {links : List (Graph.Link α)}
    (trail : Trail query state links node (state.labels.get node).arrival) :
    Paid query (expand query node rest state) (insert links seen) := by
  rcases forest.popped_found posed popped with ⟨waits, nodeInside⟩
  have get := get_close query forest.valid nodeInside rest
  have sameWays := get_close_arrival query forest.valid nodeInside rest
  -- A label that was as cheap as a journey still is, or has become cheaper.
  have still (other : Nat) (arrival : Arrival α)
      (cheap : (state.labels.get other).cost ≤ arrival.cost)
      (less : ((close query node rest state).labels.get other).settled = false →
        (state.labels.get other).cost < arrival.cost) :
      ((expand query node rest state).labels.get other).cost ≤ arrival.cost ∧
        (((expand query node rest state).labels.get other).settled = false →
          ((expand query node rest state).labels.get other).cost < arrival.cost) := by
    rcases forest.expand_renews posed popped other with same | lower
    · rw [same, Label.cost_congr (sameWays other).1]
      exact ⟨cheap, less⟩
    · rw [Label.cost_congr (sameWays other).1] at lower
      have lower := Accumulates.lt_of_lt_of_le lower cheap
      exact ⟨Accumulates.le_of_lt lower, fun _ => lower⟩
  refine ⟨Finset.insert_subset (trail.mem_ways posed.wellFormed posed.source_lt) paid.subset, ?_⟩
  intro way member
  rcases Finset.mem_insert.mp member with rfl | old
  · refine ⟨node, _, trail.journey, still node (state.labels.get node).arrival
      (Accumulates.le_self_of_le (forest.cost_nonneg posed waits.1)) ?_⟩
    intro unsettled
    rw [get, if_pos rfl] at unsettled
    cases unsettled
  · rcases paid.better way old with ⟨other, arrival, journey, cheap, less⟩
    refine ⟨other, arrival, journey, still other arrival cheap fun unsettled => less ?_⟩
    rw [get] at unsettled
    split_ifs at unsettled with isNode
    exact unsettled

/-- So many nodes can still be settled along trails that have not been paid for. -/
def Affords (query : Query α) (budget : Nat) (state : State α) : Prop :=
  Forest query state ∧ ∃ seen, Paid query state seen ∧
    budget + seen.card = (ways query.graph.links.toList.toFinset query.graph.size).card

theorem Affords.pays (posed : query.IsWellPosed) {budget : Nat} {state : State α}
    (affords : Affords query budget state) (popped : state.frontier.pop? ≠ none) :
    0 < budget := by
  rcases affords with ⟨forest, seen, paid, total⟩
  rcases Option.ne_none_iff_exists'.mp popped with ⟨⟨node, rest⟩, popped⟩
  rcases forest.popped_found posed popped with ⟨waits, -⟩
  rcases forest.tracked node waits.1 with ⟨links, trail⟩
  have smaller := Finset.card_lt_card (Finset.ssubset_iff_of_subset paid.subset |>.mpr
    ⟨links, trail.mem_ways posed.wellFormed posed.source_lt, paid.not_mem waits trail⟩)
  omega

theorem Affords.step (reopens : query.Reopens goal) {budget : Nat} {state next : State α}
    (affords : Affords query budget state) (step : Step query state next) :
    ∃ left < budget, Affords query left next := by
  have posed := reopens.toIsWellPosed
  have pays := affords.pays posed
  rcases affords with ⟨forest, seen, paid, total⟩
  cases step with
  | prune _ beyond =>
      rw [isBeyond, reopens.keepsAll] at beyond
      cases beyond
  | expand popped _ _ =>
      rcases forest.popped_found posed popped with ⟨waits, -⟩
      rcases forest.tracked _ waits.1 with ⟨links, trail⟩
      have positive := pays (by simp [popped])
      have more := Finset.card_insert_of_notMem (paid.not_mem waits trail)
      exact ⟨budget - 1, by omega, forest.expand posed popped, _,
        paid.expand forest posed popped trail, by omega⟩

end Paid

/-- A search that returns to settled nodes comes to an end. -/
theorem loop_ends_of_reopens [Accumulates α] (reopens : query.Reopens goal)
    {scratch : Scratch α} (blank : Blank query.graph.size scratch) :
    ∃ final, loop query (initial query scratch) = some final := by
  classical
  have affords : Affords query (ways query.graph.links.toList.toFinset query.graph.size).card
      (initial query scratch) :=
    ⟨.initial reopens.toIsWellPosed blank, ∅, ⟨Finset.empty_subset _, by simp⟩, by
      rw [Finset.card_empty, add_zero]⟩
  exact loop_ends (Affords query) (fun affords => affords.step reopens) affords

end JourneyTimes.Search
