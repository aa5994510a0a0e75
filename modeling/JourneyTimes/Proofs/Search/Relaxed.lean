import JourneyTimes.Proofs.Search.Sound

/-!
# Every link of a settled node is relaxed

Over exact scalars, and where no link has a negative cost, a search keeps the
costs of labels below what links could still improve: the destination of a link
that leaves a settled node costs no more than that node and the link together.
This holds of searches with a goal, which return to settled nodes, as well as
of those without one, provided that the labels they no longer touch are cheap
enough.
-/

namespace JourneyTimes

variable {K : Type} [Field K] [LinearOrder K] [FloorRing K] [Trigonometry K]

/-- No link that can be used has a negative cost, whenever it is entered. -/
def CostModel.IsNonnegative (cost : CostModel (Exact K)) (graph : Graph (Exact K)) : Prop :=
  ∀ link ∈ graph.links, ∀ time : K,
    Scalar.isFinite (cost.travelTime link time) = true → 0 ≤ cost.disutility link time

theorem CostModel.freeSpeed_isNonnegative_triangle :
    (freeSpeed : CostModel (Exact ℚ)).IsNonnegative Graph.triangle := by
  intro link member time _
  simp [Graph.triangle] at member
  rcases member with rfl | rfl | rfl
  all_goals
    dsimp only [freeSpeed]
    decide +kernel

/-- Journeys that begin at a number of seconds end at one. -/
theorem Journey.time_finite {graph : Graph (Exact K)} {cost : CostModel (Exact K)}
    {origin node : Nat} {departure arrival : Arrival (Exact K)}
    {links : List (Graph.Link (Exact K))} (begins : ∃ start : K, departure.time = start)
    (journey : Journey graph cost origin departure links node arrival) :
    ∃ time : K, arrival.time = time := by
  induction journey with
  | stay => exact begins
  | go _ _ _ usable ih =>
      rcases ih with ⟨time, timeEq⟩
      rcases Exact.isFinite_iff.mp usable with ⟨duration, durationEq⟩
      refine ⟨time + duration, ?_⟩
      rw [Arrival.along, durationEq, timeEq]
      exact Exact.finite_add_finite time duration

namespace Search

/-! ## The best of some labels -/

theorem better_le {known found : Label (Exact K)} (knownDefined : known.cost ≤ known.cost)
    (foundDefined : found.cost ≤ found.cost) :
    (better known found).cost ≤ known.cost ∧ (better known found).cost ≤ found.cost := by
  unfold better
  split_ifs with less
  · exact ⟨Exact.le_of_lt less, foundDefined⟩
  · exact ⟨knownDefined, Exact.le_of_not_lt foundDefined knownDefined less⟩

theorem foldl_better_nonneg {offers : List (Label (Exact K))} {known : Label (Exact K)}
    (knownNonneg : 0 ≤ known.cost) (nonneg : ∀ found ∈ offers, 0 ≤ found.cost) :
    0 ≤ (offers.foldl better known).cost := by
  rcases foldl_better_eq_or_mem offers known with same | member
  · rwa [same]
  · exact nonneg _ member

/-- The best of some labels costs no more than any of them. -/
theorem foldl_better_le {offers : List (Label (Exact K))} {known : Label (Exact K)}
    (knownNonneg : 0 ≤ known.cost) (nonneg : ∀ found ∈ offers, 0 ≤ found.cost) :
    (offers.foldl better known).cost ≤ known.cost ∧
      ∀ found ∈ offers, (offers.foldl better known).cost ≤ found.cost := by
  induction offers generalizing known with
  | nil => exact ⟨Exact.le_self_of_le knownNonneg, by simp⟩
  | cons found offers ih =>
      have foundNonneg := nonneg found (List.mem_cons_self ..)
      have rest : ∀ other ∈ offers, 0 ≤ other.cost := fun other member =>
        nonneg other (List.mem_cons_of_mem _ member)
      have betterNonneg : 0 ≤ ([found].foldl better known).cost :=
        foldl_better_nonneg knownNonneg (by simpa using foundNonneg)
      rcases ih betterNonneg rest with ⟨first, later⟩
      rcases better_le (Exact.le_self_of_le knownNonneg) (Exact.le_self_of_le foundNonneg) with
        ⟨leKnown, leFound⟩
      refine ⟨Exact.le_trans first leKnown, ?_⟩
      intro other member
      rcases List.mem_cons.mp member with rfl | member
      · exact Exact.le_trans first leFound
      · exact later other member

variable [IsStrictOrderedRing K] {query : Query (Exact K)}

/-- What is asked of a search that finds least costs: the graph is one of a
network, the search starts at a node and at a number of seconds, links have no
negative costs, and the potential is a number that is not negative. -/
structure Query.IsRegular (query : Query (Exact K)) : Prop where
  wellFormed : query.graph.WellFormed
  source_lt : query.source < query.graph.size
  start_finite : ∃ start : K, query.start = start
  nonneg : query.cost.IsNonnegative query.graph
  potential_finite : ∀ node, ∃ bound : K, 0 ≤ bound ∧ query.potential node = bound

/-- Nodes wait with the costs of their labels and what the potential adds. -/
def Keyed (query : Query (Exact K)) (state : State (Exact K)) : Prop :=
  ∀ entry ∈ state.frontier.entries,
    entry.key = (state.labels.get entry.node).cost + query.potential entry.node

/-- What holds of the states of a regular search between two steps. -/
structure Relaxed (query : Query (Exact K)) (state : State (Exact K)) : Prop
    extends Sound query state where
  cost_finite : ∀ node, IsFound query state node →
    ∃ cost : K, 0 ≤ cost ∧ (state.labels.get node).cost = cost
  source_cost : (state.labels.get query.source).cost ≤ 0
  keyed : Keyed query state
  relaxed : ∀ link ∈ query.graph.links, (state.labels.get link.origin).settled = true →
    query.uses (state.labels.get link.origin) link = true →
    (state.labels.get link.destination).cost ≤
      (query.offer (state.labels.get link.origin) link).cost

omit [IsStrictOrderedRing K] in
theorem Sound.time_finite {state : State (Exact K)} (sound : Sound query state)
    (regular : query.IsRegular) {node : Nat} (found : IsFound query state node) :
    ∃ time : K, (state.labels.get node).time = time := by
  rcases sound.realised node found with ⟨links, journey⟩
  exact journey.time_finite regular.start_finite

namespace Relaxed

omit [IsStrictOrderedRing K] in
theorem cost_nonneg {state : State (Exact K)} (relaxed : Relaxed query state) (node : Nat) :
    0 ≤ (state.labels.get node).cost := by
  by_cases found : IsFound query state node
  · rcases relaxed.cost_finite node found with ⟨cost, nonneg, costEq⟩
    rw [costEq]
    exact Exact.finite_nonneg.mpr nonneg
  · rw [relaxed.unknown node found]
    exact Exact.nonneg_iff.mpr (.inl rfl)

/-- What a link offers costs no less than getting to its origin. -/
theorem le_offer {state : State (Exact K)} (relaxed : Relaxed query state)
    (regular : query.IsRegular) {node : Nat} (found : IsFound query state node)
    {link : Graph.Link (Exact K)} (member : link ∈ query.graph.links)
    (usable : query.uses (state.labels.get node) link = true) :
    (state.labels.get node).cost ≤ (query.offer (state.labels.get node) link).cost := by
  rcases relaxed.cost_finite node found with ⟨cost, -, costEq⟩
  rcases relaxed.time_finite regular found with ⟨time, timeEq⟩
  have finite := (Bool.and_eq_true_iff.mp usable).2
  rw [timeEq] at finite
  have nonneg := regular.nonneg link member time finite
  rw [Query.offer, extend, costEq, timeEq]
  exact Exact.le_add_of_nonneg cost nonneg

theorem offer_nonneg {state : State (Exact K)} (relaxed : Relaxed query state)
    (regular : query.IsRegular) {node : Nat} (found : IsFound query state node)
    {link : Graph.Link (Exact K)} (member : link ∈ query.graph.links)
    (usable : query.uses (state.labels.get node) link = true) :
    0 ≤ (query.offer (state.labels.get node) link).cost :=
  Exact.le_trans (relaxed.cost_nonneg node) (relaxed.le_offer regular found member usable)

theorem offersFrom_nonneg {state : State (Exact K)} (relaxed : Relaxed query state)
    (regular : query.IsRegular) {node : Nat} (found : IsFound query state node) (other : Nat) :
    ∀ label ∈ query.offersFrom (state.labels.get node) node other, 0 ≤ label.cost := by
  intro label offered
  have nodeInside := lt_of_waits relaxed.toSound regular.wellFormed regular.source_lt found
  rcases (mem_offersFrom regular.wellFormed nodeInside).mp offered with
    ⟨link, member, -, -, usable, rfl⟩
  exact relaxed.offer_nonneg regular found member usable

omit [IsStrictOrderedRing K] in
theorem key_finite {state : State (Exact K)} (relaxed : Relaxed query state)
    (regular : query.IsRegular) : Frontier.HasFiniteKeys state.frontier.entries := by
  intro entry member
  have waits := (relaxed.waits_iff entry.node).mp (Frontier.mem_nodes.mpr ⟨entry, member, rfl⟩)
  rcases relaxed.cost_finite entry.node waits.1 with ⟨cost, -, costEq⟩
  rcases regular.potential_finite entry.node with ⟨bound, -, boundEq⟩
  exact ⟨cost + bound, by rw [relaxed.keyed entry member, costEq, boundEq,
    Exact.finite_add_finite]⟩

omit [IsStrictOrderedRing K] in
/-- The node that comes out has the least key of all that wait, and the smallest
number of those with that key. -/
theorem popped_atMost {state : State (Exact K)} (relaxed : Relaxed query state)
    (regular : query.IsRegular) {node : Nat} {rest : Frontier (Exact K)}
    (popped : state.frontier.pop? = some (node, rest)) {other : Nat}
    (waits : IsWaiting query state other) :
    Frontier.Entry.AtMost
      ⟨(state.labels.get node).cost + query.potential node, node⟩
      ⟨(state.labels.get other).cost + query.potential other, other⟩ := by
  rcases Frontier.pop?_atMost popped (relaxed.key_finite regular) with
    ⟨first, firstMember, rfl, least⟩
  rcases Frontier.mem_nodes.mp ((relaxed.waits_iff other).mpr waits) with ⟨entry, member, rfl⟩
  rw [← relaxed.keyed first firstMember, ← relaxed.keyed entry member]
  exact least entry member

omit [IsStrictOrderedRing K] in
theorem popped_key_le {state : State (Exact K)} (relaxed : Relaxed query state)
    (regular : query.IsRegular) {node : Nat} {rest : Frontier (Exact K)}
    (popped : state.frontier.pop? = some (node, rest)) {other : Nat}
    (waits : IsWaiting query state other) :
    (state.labels.get node).cost + query.potential node ≤
      (state.labels.get other).cost + query.potential other := by
  have nodeWaits := (relaxed.waits_iff node).mp (Frontier.pop?_eq_some popped).1
  rcases relaxed.cost_finite node nodeWaits.1 with ⟨cost, -, costEq⟩
  rcases regular.potential_finite node with ⟨bound, -, boundEq⟩
  refine (relaxed.popped_atMost regular popped waits).key_le ?_
  intro entry member
  rw [List.mem_singleton.mp member]
  exact ⟨cost + bound, by rw [costEq, boundEq, Exact.finite_add_finite]⟩

omit [IsStrictOrderedRing K] in
/-- In the first state only the source waits, and nothing is settled. -/
theorem initial (regular : query.IsRegular) {scratch : Scratch (Exact K)}
    (blank : Blank query.graph.size scratch) :
    Relaxed query (Search.initial query scratch) := by
  have get := get_initial blank regular.source_lt
  refine ⟨sound_initial blank regular.source_lt, ?_, ?_, ?_, ?_⟩
  · intro node found
    rw [get]
    split_ifs with isSource
    · exact ⟨0, le_rfl, rfl⟩
    · rw [IsFound, get, if_neg isSource] at found
      rcases found with same | via
      · exact absurd same isSource
      · cases via
  · rw [get, if_pos rfl]
    exact Exact.le_self_of_le (Exact.finite_nonneg.mpr le_rfl)
  · intro entry member
    rw [entries_initial blank] at member
    obtain rfl := List.mem_singleton.mp member
    rcases regular.potential_finite query.source with ⟨bound, -, boundEq⟩
    rw [get, if_pos rfl, boundEq]
    exact congrArg Exact.finite (zero_add bound).symm
  · intro link member settled
    rw [get] at settled
    split_ifs at settled <;> cases settled

/-! ## Pruning and expanding -/

omit [IsStrictOrderedRing K] in
theorem prune {state : State (Exact K)} (relaxed : Relaxed query state)
    (regular : query.IsRegular) {node : Nat} {rest : Frontier (Exact K)}
    (popped : state.frontier.pop? = some (node, rest)) :
    Relaxed query (Search.prune node rest state) := by
  rcases relaxed.popped_found regular.wellFormed regular.source_lt popped with ⟨waits, nodeInside⟩
  have get := get_prune relaxed.valid nodeInside rest
  have same (other : Nat) :
      ((Search.prune node rest state).labels.get other).cost = (state.labels.get other).cost ∧
      ((Search.prune node rest state).labels.get other).via = (state.labels.get other).via := by
    rw [get]
    split_ifs with equal
    · subst equal
      exact ⟨rfl, rfl⟩
    · exact ⟨rfl, rfl⟩
  refine ⟨relaxed.toSound.prune regular.wellFormed regular.source_lt popped, ?_, ?_, ?_, ?_⟩
  · intro other found
    rw [IsFound, (same other).2] at found
    rw [(same other).1]
    exact relaxed.cost_finite other found
  · rw [(same query.source).1]
    exact relaxed.source_cost
  · intro entry member
    rw [(same entry.node).1]
    exact relaxed.keyed entry ((Frontier.mem_entries_of_pop? popped).mp member).1
  · intro link member settled usable
    rw [(same link.destination).1]
    have apart : link.origin ≠ node := by
      intro equal
      rw [get, if_pos equal] at settled
      exact waits.not_settled settled
    rw [get, if_neg apart] at settled usable ⊢
    exact relaxed.relaxed link member settled usable

omit [IsStrictOrderedRing K] in
theorem keyed_foldl_relax {here : Label (Exact K)} (links : List (Graph.Link (Exact K)))
    (inside : ∀ link ∈ links, link.destination < query.graph.size)
    {state : State (Exact K)} (valid : state.labels.Valid query.graph.size)
    (keyed : Keyed query state) : Keyed query (links.foldl (relax query here) state) :=
  entries_foldl_relax (fun entry cost => entry.key = cost + query.potential entry.node) links
    inside (fun _ _ _ => rfl) valid keyed

section Expand

variable {state : State (Exact K)} (relaxed : Relaxed query state)
  (regular : query.IsRegular) {node : Nat} {rest : Frontier (Exact K)}
  (popped : state.frontier.pop? = some (node, rest))

include relaxed regular popped

omit [IsStrictOrderedRing K] in
/-- Settling a node changes no cost. -/
theorem get_close_cost (other : Nat) :
    ((close query node rest state).labels.get other).cost =
      (state.labels.get other).cost := by
  have nodeInside :=
    (relaxed.popped_found regular.wellFormed regular.source_lt popped).2
  rw [get_close query relaxed.valid nodeInside]
  split_ifs with equal
  · rw [equal]
  · rfl

theorem get_expand_cost_le (other : Nat) :
    ((expand query node rest state).labels.get other).cost ≤
      (state.labels.get other).cost := by
  rcases relaxed.popped_found regular.wellFormed regular.source_lt popped with ⟨waits, nodeInside⟩
  have closedCost := relaxed.get_close_cost regular popped other
  rw [get_expand regular.wellFormed relaxed.valid nodeInside, ← closedCost]
  have nonneg := relaxed.cost_nonneg other
  rw [← closedCost] at nonneg
  split_ifs
  · exact Exact.le_self_of_le nonneg
  · exact (foldl_better_le nonneg (relaxed.offersFrom_nonneg regular waits.1 other)).1

theorem expand_cost_finite (other : Nat)
    (found : IsFound query (Search.expand query node rest state) other) :
    ∃ cost : K, 0 ≤ cost ∧
      ((Search.expand query node rest state).labels.get other).cost = cost := by
  rcases relaxed.popped_found regular.wellFormed regular.source_lt popped with ⟨waits, nodeInside⟩
  have closed := relaxed.toSound.close regular.wellFormed regular.source_lt popped
  have closedCost := relaxed.get_close_cost regular popped other
  rcases get_expand_improves regular.wellFormed relaxed.valid nodeInside rest other with
    same | ⟨offered, less⟩
  · rw [same, closedCost]
    apply relaxed.cost_finite other
    rwa [IsFound, same, (get_close_arrival query relaxed.valid nodeInside rest other).2] at found
  · exact Exact.finite_of_nonneg_of_lt
      (relaxed.offersFrom_nonneg regular waits.1 other _ offered) less

omit [IsStrictOrderedRing K] in
/-- A label is kept when a node is settled, or given up for a cheaper one that is
offered by that node. -/
theorem expand_label_cases (other : Nat) :
    (Search.expand query node rest state).labels.get other =
        (close query node rest state).labels.get other ∨
      (Search.expand query node rest state).labels.get other ∈
          query.offersFrom (state.labels.get node) node other ∧
        ((Search.expand query node rest state).labels.get other).cost <
          (state.labels.get other).cost := by
  rcases relaxed.popped_found regular.wellFormed regular.source_lt popped with ⟨-, nodeInside⟩
  rw [← relaxed.get_close_cost regular popped other]
  exact get_expand_improves regular.wellFormed relaxed.valid nodeInside rest other

/-- Expanding a node keeps all links of settled nodes relaxed, if the labels
that it leaves alone cost no more than the node. -/
theorem expand (cheap : ∀ other,
      query.isFinal ((close query node rest state).labels.get other) = true →
        (state.labels.get other).cost ≤ (state.labels.get node).cost) :
    Relaxed query (Search.expand query node rest state) := by
  rcases relaxed.popped_found regular.wellFormed regular.source_lt popped with ⟨waits, nodeInside⟩
  have closed := get_close query relaxed.valid nodeInside rest
  have targets : ∀ link ∈ query.graph.linksAt .outgoing node,
      link.destination < query.graph.size := fun link member =>
    regular.wellFormed.destination_lt link
      ((regular.wellFormed.mem_linksAt nodeInside).mp member).1
  refine ⟨relaxed.toSound.expand regular.wellFormed regular.source_lt popped,
    relaxed.expand_cost_finite regular popped,
    Exact.le_trans (relaxed.get_expand_cost_le regular popped _) relaxed.source_cost,
    keyed_foldl_relax _ targets (relaxed.valid.settle _) ?_,
    ?_⟩
  · intro entry member
    rw [relaxed.get_close_cost regular popped]
    exact relaxed.keyed entry ((Frontier.mem_entries_of_pop? popped).mp member).1
  · intro link member settled usable
    -- A settled label was not offered, so it is the one from before.
    have same : (Search.expand query node rest state).labels.get link.origin =
        (close query node rest state).labels.get link.origin := by
      rcases get_expand_cases regular.wellFormed relaxed.valid nodeInside rest link.origin
        with same | ⟨-, offered⟩
      · exact same
      · rcases (mem_offersFrom regular.wellFormed nodeInside).mp offered with
          ⟨other, -, -, -, -, offer⟩
        rw [← offer] at settled
        cases settled
    rw [same, closed] at settled usable ⊢
    split_ifs at settled usable ⊢ with equal
    · subst equal
      have dear := relaxed.le_offer regular waits.1 member usable
      have offered : query.offer (state.labels.get link.origin) link ∈ query.offersFrom
          (state.labels.get link.origin) link.origin link.destination :=
        (mem_offersFrom regular.wellFormed nodeInside).mpr
          ⟨link, member, rfl, rfl, usable, rfl⟩
      rw [get_expand regular.wellFormed relaxed.valid nodeInside]
      have closedCost := relaxed.get_close_cost regular popped link.destination
      split_ifs with final
      · rw [closedCost]
        exact Exact.le_trans (cheap _ final) dear
      · have nonneg := relaxed.cost_nonneg link.destination
        rw [← closedCost] at nonneg
        exact (foldl_better_le nonneg
          (relaxed.offersFrom_nonneg regular waits.1 link.destination)).2 _ offered
    · exact Exact.le_trans (relaxed.get_expand_cost_le regular popped link.destination)
        (relaxed.relaxed link member settled usable)

end Expand

end Relaxed

end Search

end JourneyTimes
