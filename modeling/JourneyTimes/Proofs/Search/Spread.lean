import JourneyTimes.Proofs.Search.Outreach

/-!
# Searches reach all that is connected

Links may cost anything here, and some of them may even pay.  A search without bounds
still settles every node once and goes on until nothing waits, and by then each link
of a settled node that can be used has led somewhere.  If it is the same links that
can be used at all times, what the search reaches is what such links lead to: costs
decide on the labels, and on nothing else.
-/

namespace JourneyTimes

variable {K : Type} [Field K] [LinearOrder K] [FloorRing K] [Trigonometry K]

/-- A link can be used when it is entered at a time: it comes to an end, at a cost
below infinity. -/
structure CostModel.IsPassable (cost : CostModel (Exact K)) (link : Graph.Link (Exact K))
    (time : Exact K) : Prop where
  ends : Scalar.isFinite (cost.travelTime link time) = true
  affordable : cost.disutility link time < .infinity

/-- Which links can be used does not depend on when they are entered.  Whoever departs
at a number of seconds enters links at such times only. -/
def CostModel.HasFixedPassages (cost : CostModel (Exact K)) (graph : Graph (Exact K))
    (departure : Exact K) : Prop :=
  ∀ link ∈ graph.links, ∀ time : Exact K,
    (Scalar.isFinite departure = true → Scalar.isFinite time = true) →
      (cost.IsPassable link time ↔ cost.IsPassable link departure)

/-- Links whose time and cost never change can be used at all times, or never. -/
theorem CostModel.IsSteady.hasFixedPassages {cost : CostModel (Exact K)}
    {graph : Graph (Exact K)} (steady : cost.IsSteady graph) (departure : Exact K) :
    cost.HasFixedPassages graph departure := by
  intro link member time _
  rcases steady link member time departure with ⟨sameTime, sameCost⟩
  constructor
  · rintro ⟨ends, affordable⟩
    exact ⟨sameTime ▸ ends, sameCost ▸ affordable⟩
  · rintro ⟨ends, affordable⟩
    exact ⟨sameTime ▸ ends, sameCost ▸ affordable⟩

/-- Links that can be used at a time lead from one node to another. -/
def CostModel.Connects (cost : CostModel (Exact K)) (graph : Graph (Exact K))
    (time : Exact K) (origin destination : Nat) : Prop :=
  ∃ links, graph.Walk origin links destination ∧ ∀ link ∈ links, cost.IsPassable link time

/-- Walks connect where all links can be used. -/
theorem CostModel.connects_of_walk {cost : CostModel (Exact K)} {graph : Graph (Exact K)}
    {time : Exact K} (passable : ∀ link ∈ graph.links, cost.IsPassable link time)
    {origin destination : Nat} (walk : ∃ links, graph.Walk origin links destination) :
    cost.Connects graph time origin destination := by
  rcases walk with ⟨links, walk⟩
  exact ⟨links, walk, fun link member => passable link (walk.mem_links link member)⟩

/-- Journeys at a cost below infinity follow links that can be used. -/
theorem Journey.connects {graph : Graph (Exact K)} {cost : CostModel (Exact K)}
    {origin node : Nat} {departure arrival : Arrival (Exact K)}
    {links : List (Graph.Link (Exact K))}
    (fixed : cost.HasFixedPassages graph departure.time)
    (journey : Journey graph cost origin departure links node arrival)
    (below : arrival.cost < .infinity) :
    graph.Walk origin links node ∧ ∀ link ∈ links, cost.IsPassable link departure.time := by
  induction journey with
  | stay => exact ⟨.stay origin, by simp⟩
  | @go links node here link before member leaves usable ih =>
      subst leaves
      rcases Exact.add_lt_infinity.mp below with ⟨hereBelow, affordable⟩
      rcases ih hereBelow with ⟨walk, passable⟩
      refine ⟨walk.append (.go member (.stay _)), ?_⟩
      have passableHere : cost.IsPassable link departure.time := by
        refine (fixed link member here.time fun finite => ?_).mp ⟨usable, affordable⟩
        exact Exact.isFinite_iff.mpr (before.time_finite (Exact.isFinite_iff.mp finite))
      intro other otherMember
      rcases List.mem_append.mp otherMember with old | new
      · exact passable other old
      · rw [List.mem_singleton.mp new]
        exact passableHere

namespace Search

variable {query : Query (Exact K)}

/-- What holds of the states of a search without a goal between two steps, whatever
links cost. -/
structure Spreads (query : Query (Exact K)) (state : State (Exact K)) : Prop
    extends Sound query state where
  below : ∀ node, IsFound query state node → (state.labels.get node).cost < .infinity
  departs : (state.labels.get query.source).time = query.start
  begun : ∀ node, IsFound query state node →
    node = query.source ∨ (state.labels.get query.source).settled = true
  goesOn : GoesOn query state

theorem spreads_initial {scratch : Scratch (Exact K)}
    (blank : Blank query.graph.size scratch) (inside : query.source < query.graph.size) :
    Spreads query (initial query scratch) := by
  have get := get_initial blank inside
  have isSource (node : Nat) (found : IsFound query (initial query scratch) node) :
      node = query.source := by
    by_contra apart
    rw [IsFound, get, if_neg apart] at found
    rcases found with same | found
    · exact apart same
    · cases found
  refine ⟨sound_initial blank inside, ?_, ?_, fun node found => .inl (isSource node found),
    goesOn_initial inside blank⟩
  · intro node found
    rw [get, if_pos (isSource node found)]
    exact Exact.finite_lt_infinity 0
  · rw [get, if_pos rfl]
    rfl

section

variable (wellFormed : query.graph.WellFormed) (inside : query.source < query.graph.size)
  (noGoal : query.goal = none) {state : State (Exact K)} {node : Nat} {rest : Frontier (Exact K)}

include wellFormed inside noGoal

/-- The source comes out first, and is settled from then on. -/
theorem Spreads.source_settled (spreads : Spreads query state)
    (popped : state.frontier.pop? = some (node, rest)) :
    (expand query node rest state).labels.get query.source =
        (close query node rest state).labels.get query.source ∧
      ((close query node rest state).labels.get query.source).settled = true := by
  rcases spreads.popped_found wellFormed inside popped with ⟨waits, nodeInside⟩
  have settled : ((close query node rest state).labels.get query.source).settled = true := by
    rw [get_close query spreads.valid nodeInside]
    split_ifs with first
    · rfl
    · exact (spreads.begun node waits.1).resolve_left (Ne.symm first)
  refine ⟨?_, settled⟩
  rw [get_expand wellFormed spreads.valid nodeInside, if_pos (isFinal_of_settled noGoal settled)]

protected theorem Spreads.expand (spreads : Spreads query state)
    (popped : state.frontier.pop? = some (node, rest)) :
    Spreads query (Search.expand query node rest state) := by
  rcases spreads.popped_found wellFormed inside popped with ⟨waits, nodeInside⟩
  have source := spreads.source_settled wellFormed inside noGoal popped
  have arrivals := get_close_arrival query spreads.valid nodeInside rest
  refine ⟨spreads.toSound.expand wellFormed inside popped, ?_, ?_, ?_,
    spreads.goesOn.expand wellFormed inside popped noGoal spreads.toSound⟩
  · intro other found
    have wasBelow (wasFound : IsFound query state other) :
        ((close query node rest state).labels.get other).cost < .infinity := by
      rw [Label.cost_congr (arrivals other).1]
      exact spreads.below other wasFound
    rcases get_expand_improves wellFormed spreads.valid nodeInside rest other with
      same | ⟨-, less⟩
    · rw [same]
      exact wasBelow (by rwa [IsFound, same, (arrivals other).2] at found)
    · by_cases wasFound : IsFound query state other
      · exact Exact.lt_trans less (wasBelow wasFound)
      · rwa [Label.cost_congr (arrivals other).1, spreads.unknown other wasFound] at less
  · rw [source.1, Label.time_congr (arrivals _).1]
    exact spreads.departs
  · exact fun _ _ => .inr (source.1 ▸ source.2)

/-- A search that prunes nothing spreads. -/
theorem spreads_of_reaches (keepsAll : query.KeepsAll) {scratch : Scratch (Exact K)}
    (blank : Blank query.graph.size scratch)
    (reaches : Reaches query (initial query scratch) state) : Spreads query state := by
  refine reaches.keeps (Spreads query) ?_ (spreads_initial blank inside)
  intro state next spreads step
  cases step with
  | prune _ beyond =>
      rw [isBeyond, keepsAll] at beyond
      cases beyond
  | expand popped _ _ => exact spreads.expand wellFormed inside noGoal popped

/-- A search without bounds spreads until nothing waits. -/
theorem run_spreads (unbounded : query.bounds = .unbounded) {scratch : Scratch (Exact K)}
    (blank : Blank query.graph.size scratch)
    {final : State (Exact K)} (ran : run query scratch = .ok final) :
    Spreads query final ∧
      (∀ node, (final.labels.get node).pruned = false) ∧
      final.frontier.pop? = none := by
  have keepsAll : query.KeepsAll := by
    intro elapsed distance
    rw [unbounded]
    rfl
  rcases run_reaches noGoal (by rw [unbounded]; rfl) ran with ⟨reaches, exhausted⟩
  exact ⟨spreads_of_reaches wellFormed inside noGoal keepsAll blank reaches,
    unpruned_of_reaches wellFormed inside keepsAll blank reaches, exhausted⟩

end

section

variable {state : State (Exact K)} (spreads : Spreads query state)
  (priced : ∀ link ∈ query.graph.links, query.cost.prices link = true)
  (unpruned : ∀ node, (state.labels.get node).pruned = false)
  (exhausted : state.frontier.pop? = none)
  (fixed : query.cost.HasFixedPassages query.graph query.start)

include spreads priced unpruned exhausted fixed

/-- When nothing waits any more, links that can be used lead from settled nodes to
settled nodes. -/
theorem Spreads.settled_of_walk {origin node : Nat} {links : List (Graph.Link (Exact K))}
    (walk : query.graph.Walk origin links node)
    (passable : ∀ link ∈ links, query.cost.IsPassable link query.start)
    (settled : (state.labels.get origin).settled = true) :
    (state.labels.get node).settled = true := by
  induction walk with
  | stay => exact settled
  | @go link links node member _ ih =>
      rcases List.forall_mem_cons.mp passable with ⟨first, rest⟩
      have found := spreads.found_of_settled settled
      have passableHere : query.cost.IsPassable link (state.labels.get link.origin).time := by
        refine (fixed link member _ fun finite => ?_).mpr first
        rcases spreads.realised _ found with ⟨before, journey⟩
        exact Exact.isFinite_iff.mpr (journey.time_finite (Exact.isFinite_iff.mp finite))
      refine ih rest (spreads.settled_of_found exhausted unpruned ?_)
      exact spreads.goesOn link member settled ⟨priced link member, passableHere.ends,
        Exact.add_lt_infinity.mpr ⟨spreads.below _ found, passableHere.affordable⟩⟩

/-- When nothing waits any more, the settled nodes are those that links lead to which
can be used. -/
theorem Spreads.settled_iff (node : Nat) : (state.labels.get node).settled = true ↔
    query.cost.Connects query.graph query.start query.source node := by
  constructor
  · intro settled
    have found := spreads.found_of_settled settled
    rcases spreads.realised node found with ⟨links, journey⟩
    exact ⟨links, journey.connects fixed (spreads.below node found)⟩
  · rintro ⟨links, walk, passable⟩
    exact spreads.settled_of_walk priced unpruned exhausted fixed walk passable
      (spreads.settled_of_found exhausted unpruned (.inl rfl))

end

end Search

namespace PathTree

variable {graph : Graph (Exact K)} {cost : CostModel (Exact K)}
  {landmarks : Option (Landmarks (Exact K))} {tree : PathTree (Exact K)}

/-- A search without bounds reports the nodes that links lead to which can be used,
whatever they cost: the source when the search departs, and all others at a number of
seconds if it departs at one. -/
theorem calculate_connected (wellFormed : graph.WellFormed)
    (priced : ∀ link ∈ graph.links, cost.prices link = true) {departure : Exact K}
    (fixed : cost.HasFixedPassages graph departure) (used : Used graph cost landmarks tree)
    {source : Nat} (inside : source < graph.size) :
    ∃ answered, tree.calculate source departure .unbounded = .ok answered ∧
      answered.time? source = some departure ∧ ∀ node,
        ((answered.time? node).isSome = true ↔ cost.Connects graph departure source node) ∧
        ∀ time, answered.time? node = some time → Scalar.isFinite departure = true →
          Scalar.isFinite time = true := by
  rcases used.calculate_ok wellFormed priced inside departure .unbounded nofun with
    ⟨_, final, answered, blank, ran, done, answers⟩
  have unbounded : (queryOn graph cost landmarks source departure .unbounded none).bounds =
      .unbounded := rfl
  rcases Search.run_spreads wellFormed inside rfl unbounded blank ran with
    ⟨spreads, unpruned, exhausted⟩
  have reached (node : Nat) : answered.isReached node = true ↔
      cost.Connects graph departure source node := by
    refine Iff.trans (answers.isReached_iff_of_settled fun settled => ⟨?_, unpruned node⟩)
      (spreads.settled_iff priced unpruned exhausted fixed node)
    exact Search.lt_of_waits spreads.toSound wellFormed inside (spreads.found_of_settled settled)
  refine ⟨answered, done, ?_, fun node => ⟨?_, ?_⟩⟩
  · rw [time?, if_pos ((reached source).mpr ⟨[], .stay source, by simp⟩), answers.label_eq]
    exact congrArg some spreads.departs
  · rw [time?, ← reached]
    split_ifs with isReached <;> simp [isReached]
  · intro time timed finite
    rw [time?] at timed
    split_ifs at timed with isReached
    cases timed
    have settled := settled_of_isReached isReached
    rw [answers.label_eq] at settled ⊢
    rcases spreads.realised node (spreads.found_of_settled settled) with ⟨links, journey⟩
    exact Exact.isFinite_iff.mpr (journey.time_finite (Exact.isFinite_iff.mp finite))

end PathTree

end JourneyTimes
