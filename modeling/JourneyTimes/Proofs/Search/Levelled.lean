import JourneyTimes.Proofs.Search.Once
import JourneyTimes.Proofs.Search.Relaxed

/-!
# Searches without a goal settle nodes in the order of their costs

Without a goal the frontier is ordered by cost alone.  Since links have no
negative costs, a node that has been dealt with costs no more than any that
still waits, so the label that it keeps could not be improved any more.
-/

namespace JourneyTimes.Search

variable {K : Type} [Field K] [LinearOrder K] [FloorRing K] [Trigonometry K]

/-- What is asked of a search for least costs that has no goal. -/
structure Query.IsPlain (query : Query (Exact K)) : Prop extends query.IsRegular where
  noGoal : query.goal = none
  noPotential : ∀ node, query.potential node = 0

/-- What holds of the states of a plain search between two steps. -/
structure Levelled (query : Query (Exact K)) (state : State (Exact K)) : Prop
    extends Relaxed query state where
  level : ∀ dealt waiting, query.isFinal (state.labels.get dealt) = true →
    IsWaiting query state waiting →
    (state.labels.get dealt).cost ≤ (state.labels.get waiting).cost

variable [IsStrictOrderedRing K] {query : Query (Exact K)}

omit [IsStrictOrderedRing K] in
theorem Query.IsPlain.add_potential (plain : query.IsPlain) {cost : Exact K} (nonneg : 0 ≤ cost)
    (node : Nat) : cost + query.potential node = cost := by
  rw [plain.noPotential]
  rcases Exact.nonneg_iff.mp nonneg with rfl | ⟨value, -, rfl⟩
  · rfl
  · exact congrArg Exact.finite (add_zero value)

namespace Levelled

omit [IsStrictOrderedRing K] in
/-- The node that comes out costs least of all that wait, and has the smallest
number of those with that cost. -/
theorem popped_first {state : State (Exact K)} (levelled : Levelled query state)
    (plain : query.IsPlain) {node : Nat} {rest : Frontier (Exact K)}
    (popped : state.frontier.pop? = some (node, rest)) {other : Nat}
    (waits : IsWaiting query state other) :
    Frontier.Entry.AtMost ⟨(state.labels.get node).cost, node⟩
      ⟨(state.labels.get other).cost, other⟩ := by
  have atMost := levelled.popped_atMost plain.toIsRegular popped waits
  rwa [plain.add_potential (levelled.cost_nonneg node),
    plain.add_potential (levelled.cost_nonneg other)] at atMost

omit [IsStrictOrderedRing K] in
theorem popped_le {state : State (Exact K)} (levelled : Levelled query state)
    (plain : query.IsPlain) {node : Nat} {rest : Frontier (Exact K)}
    (popped : state.frontier.pop? = some (node, rest)) {other : Nat}
    (waits : IsWaiting query state other) :
    (state.labels.get node).cost ≤ (state.labels.get other).cost := by
  have atMost := levelled.popped_key_le plain.toIsRegular popped waits
  rwa [plain.add_potential (levelled.cost_nonneg node),
    plain.add_potential (levelled.cost_nonneg other)] at atMost

omit [IsStrictOrderedRing K] in
theorem initial (plain : query.IsPlain) {scratch : Scratch (Exact K)}
    (blank : Blank query.graph.size scratch) :
    Levelled query (Search.initial query scratch) := by
  refine ⟨Relaxed.initial plain.toIsRegular blank, ?_⟩
  intro dealt waiting final _
  rw [get_initial blank plain.source_lt, isFinal_eq plain.noGoal] at final
  split_ifs at final <;> cases final

section Step

variable {state : State (Exact K)} (levelled : Levelled query state) (plain : query.IsPlain)
  {node : Nat} {rest : Frontier (Exact K)} (popped : state.frontier.pop? = some (node, rest))

include levelled plain popped

omit [IsStrictOrderedRing K] in
/-- Nodes that have been dealt with cost no more than the one that comes out,
nor does this one itself. -/
theorem dealt_le {dealt : Nat}
    (final : dealt = node ∨ query.isFinal (state.labels.get dealt) = true) :
    (state.labels.get dealt).cost ≤ (state.labels.get node).cost := by
  have waits := (levelled.popped_found plain.wellFormed plain.source_lt popped).1
  rcases final with rfl | final
  · exact levelled.popped_le plain popped waits
  · exact levelled.level dealt node final waits

omit [IsStrictOrderedRing K] in
theorem prune : Levelled query (Search.prune node rest state) := by
  rcases levelled.popped_found plain.wellFormed plain.source_lt popped with ⟨nodeWaits, nodeInside⟩
  have get := get_prune levelled.valid nodeInside rest
  refine ⟨levelled.toRelaxed.prune plain.toIsRegular popped, ?_⟩
  intro dealt waiting final waits
  have apart : waiting ≠ node := by
    rintro rfl
    have unpruned := waits.2.2
    rw [get, if_pos rfl] at unpruned
    cases unpruned
  have waited : IsWaiting query state waiting := by
    rwa [IsWaiting, IsFound, get, if_neg apart] at waits
  have costs : ((Search.prune node rest state).labels.get dealt).cost =
      (state.labels.get dealt).cost := by
    rw [get]
    split_ifs with equal
    · rw [equal]
    · rfl
  rw [get waiting, if_neg apart, costs]
  have wasDealt : dealt = node ∨ query.isFinal (state.labels.get dealt) = true := by
    by_cases equal : dealt = node
    · exact .inl equal
    · rw [get, if_neg equal] at final
      exact .inr final
  exact Exact.le_trans (levelled.dealt_le plain popped wasDealt)
    (levelled.popped_le plain popped waited)

theorem expand : Levelled query (Search.expand query node rest state) := by
  rcases levelled.popped_found plain.wellFormed plain.source_lt popped with ⟨nodeWaits, nodeInside⟩
  have closed := get_close query levelled.valid nodeInside rest
  have closedCost := levelled.get_close_cost plain.toIsRegular popped
  have wasDealt (dealt : Nat) :=
    (isFinal_get_close plain.noGoal levelled.valid nodeInside rest dealt).mp
  refine ⟨levelled.toRelaxed.expand plain.toIsRegular popped fun other final =>
    levelled.dealt_le plain popped (wasDealt other final), ?_⟩
  intro dealt waiting final waits
  -- A final label was not offered in this step.
  have keptFinal : (Search.expand query node rest state).labels.get dealt =
        (close query node rest state).labels.get dealt := by
    rcases get_expand_cases plain.wellFormed levelled.valid nodeInside rest dealt
      with same | ⟨-, offered⟩
    · exact same
    · rcases (mem_offersFrom plain.wellFormed nodeInside).mp offered with ⟨link, -, -, -, -, offer⟩
      rw [← offer, isFinal_offer] at final
      cases final
  rw [keptFinal] at final ⊢
  rw [closedCost]
  apply Exact.le_trans (levelled.dealt_le plain popped (wasDealt dealt final))
  rcases get_expand_cases plain.wellFormed levelled.valid nodeInside rest waiting
    with same | ⟨-, offered⟩
  · have apart : waiting ≠ node := by
      rintro rfl
      have unsettled := waits.2.1
      rw [same, closed, if_pos rfl] at unsettled
      cases unsettled
    rw [IsWaiting, IsFound, same, closed, if_neg apart] at waits
    rw [same, closedCost]
    exact levelled.popped_le plain popped waits
  · rcases (mem_offersFrom plain.wellFormed nodeInside).mp offered with
      ⟨link, member, -, -, usable, offer⟩
    rw [← offer]
    exact levelled.le_offer plain.toIsRegular nodeWaits.1 member usable

end Step

theorem step {state next : State (Exact K)} (levelled : Levelled query state)
    (plain : query.IsPlain) (step : Step query state next) : Levelled query next := by
  cases step with
  | prune popped _ => exact levelled.prune plain popped
  | expand popped _ _ => exact levelled.expand plain popped

end Levelled

/-- All states of a plain search are levelled. -/
theorem levelled_of_reaches (plain : query.IsPlain) {scratch : Scratch (Exact K)}
    (blank : Blank query.graph.size scratch) {state : State (Exact K)}
    (reaches : Reaches query (initial query scratch) state) : Levelled query state :=
  reaches.keeps (Levelled query) (fun levelled step => levelled.step plain step)
    (.initial plain blank)

end JourneyTimes.Search
