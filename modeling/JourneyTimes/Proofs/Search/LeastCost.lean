import JourneyTimes.Proofs.Search.EarliestArrival

/-!
# When labels are least costs

A search keeps one label for every node, that of the cheapest way to it found so
far.  Where cost and time differ, a dearer way may be at a node at a better time:
it catches a connection that the cheapest one misses, or is spared the wait for
it.  Such a way overtakes the label, and the search does not see it.  The labels
are least costs exactly if no way ever overtakes one.
-/

namespace JourneyTimes

variable {K : Type} [Field K] [LinearOrder K] [FloorRing K] [Trigonometry K]

/-- Whenever a link can be used, its cost is a number that is not negative. -/
def CostModel.HasNonnegativePrices (cost : CostModel (Exact K)) (graph : Graph (Exact K)) :
    Prop :=
  ∀ link ∈ graph.links, ∀ time : K, Scalar.isFinite (cost.travelTime link time) = true →
    ∃ price : K, 0 ≤ price ∧ cost.disutility link time = price

/-- A link that can be used at some time can be used at any other. -/
def CostModel.IsAlwaysOpen (cost : CostModel (Exact K)) (graph : Graph (Exact K)) : Prop :=
  ∀ link ∈ graph.links, ∀ time other : K,
    Scalar.isFinite (cost.travelTime link time) = true →
    Scalar.isFinite (cost.travelTime link other) = true

theorem CostModel.HasNonnegativePrices.isNonnegative {cost : CostModel (Exact K)}
    {graph : Graph (Exact K)} (prices : cost.HasNonnegativePrices graph) :
    cost.IsNonnegative graph := by
  intro link member time usable
  rcases prices link member time usable with ⟨price, nonneg, priceEq⟩
  rw [priceEq]
  exact Exact.finite_nonneg.mpr nonneg

variable [IsStrictOrderedRing K]

/-- Journeys cost a number that is not negative. -/
theorem Journey.cost_finite {graph : Graph (Exact K)} {cost : CostModel (Exact K)}
    (prices : cost.HasNonnegativePrices graph) {origin node : Nat} (start : K)
    {arrival : Arrival (Exact K)} {links : List (Graph.Link (Exact K))}
    (journey : Journey graph cost origin (Arrival.departure start) links node arrival) :
    ∃ total : K, 0 ≤ total ∧ arrival.cost = total := by
  induction journey with
  | stay => exact ⟨0, le_rfl, rfl⟩
  | go before member _ usable ih =>
      rcases ih with ⟨total, nonneg, totalEq⟩
      rcases before.time_finite ⟨start, rfl⟩ with ⟨time, timeEq⟩
      rw [timeEq] at usable
      rcases prices _ member time usable with ⟨price, priceNonneg, priceEq⟩
      refine ⟨total + price, add_nonneg nonneg priceNonneg, ?_⟩
      rw [Arrival.along, timeEq, totalEq, priceEq, Exact.finite_add_finite]

namespace Search

variable {query : Query (Exact K)}

/-- A journey gets to the origin of a link at another time than the label there
says and at no lower cost, and the link then leads it to its destination at a
lower cost than the label there says. -/
structure Overtakes (query : Query (Exact K)) (state : State (Exact K))
    (links : List (Graph.Link (Exact K))) (arrival : Arrival (Exact K))
    (link : Graph.Link (Exact K)) : Prop where
  journey : Journey query.graph query.cost query.source (Arrival.departure query.start)
    links link.origin arrival
  member : link ∈ query.graph.links
  usable : Scalar.isFinite (query.cost.travelTime link arrival.time) = true
  apart : (state.labels.get link.origin).time ≠ arrival.time
  dearer : (state.labels.get link.origin).cost ≤ arrival.cost
  cheaper : (arrival.along query.cost link).cost < (state.labels.get link.destination).cost

section

variable {state : State (Exact K)} (relaxed : Relaxed query state)
  (unpruned : ∀ node, (state.labels.get node).pruned = false)
  (exhausted : state.frontier.pop? = none)
  (priced : ∀ link ∈ query.graph.links, query.cost.prices link = true)
  (prices : query.cost.HasNonnegativePrices query.graph)
  (alwaysOpen : query.cost.IsAlwaysOpen query.graph) {start : K} (starts : query.start = start)

include relaxed unpruned exhausted priced prices alwaysOpen starts

omit [IsStrictOrderedRing K] in
/-- When nothing waits any more, a link out of a settled node can be used at the
time of the label there, and has been relaxed. -/
theorem Relaxed.passes {link : Graph.Link (Exact K)} (member : link ∈ query.graph.links)
    (settled : (state.labels.get link.origin).settled = true) {arrival : Arrival (Exact K)}
    (begins : ∃ time : K, arrival.time = time)
    (usable : Scalar.isFinite (query.cost.travelTime link arrival.time) = true) :
    (state.labels.get link.destination).settled = true ∧
      (state.labels.get link.destination).cost ≤ (state.labels.get link.origin).cost +
        query.cost.disutility link (state.labels.get link.origin).time := by
  have found := relaxed.found_of_settled settled
  rcases begins with ⟨time, timeEq⟩
  obtain ⟨labelTime, labelTimeEq⟩ : ∃ time : K, (state.labels.get link.origin).time = time := by
    obtain ⟨links, journey⟩ := relaxed.realised _ found
    exact journey.time_finite ⟨start, starts⟩
  rw [timeEq] at usable
  have isOpen := alwaysOpen link member time labelTime usable
  have uses : query.uses (state.labels.get link.origin) link = true := by
    rw [Query.uses, priced link member, labelTimeEq, isOpen]
    rfl
  have improved := relaxed.relaxed link member settled uses
  rcases relaxed.cost_finite _ found with ⟨cost, -, costEq⟩
  rcases prices link member labelTime isOpen with ⟨price, -, priceEq⟩
  have cheap : (state.labels.get link.destination).cost ≤ ↑(cost + price) := by
    rw [← Exact.finite_add_finite, ← costEq, ← priceEq, ← labelTimeEq]
    exact improved
  have destinationFound := relaxed.found_of_cost_le cheap
  exact ⟨relaxed.settled_of_found exhausted unpruned destinationFound, improved⟩

omit [IsStrictOrderedRing K] in
/-- When nothing waits any more, every node that a journey leads to is settled. -/
theorem Relaxed.settled_of_journey {node : Nat} {arrival : Arrival (Exact K)}
    {links : List (Graph.Link (Exact K))}
    (journey : Journey query.graph query.cost query.source (Arrival.departure query.start)
      links node arrival) : (state.labels.get node).settled = true := by
  induction journey with
  | stay => exact relaxed.settled_of_found exhausted unpruned (.inl rfl)
  | go before member leaves usable ih =>
      subst leaves
      exact (relaxed.passes unpruned exhausted priced prices alwaysOpen starts member ih
        (before.time_finite ⟨start, starts⟩) usable).1

/-- Where a link costs the same at both times, a label is no dearer than a journey
through an origin whose label is no dearer. -/
theorem Relaxed.label_le_along {link : Graph.Link (Exact K)} {arrival : Arrival (Exact K)}
    {links : List (Graph.Link (Exact K))}
    (journey : Journey query.graph query.cost query.source (Arrival.departure query.start)
      links link.origin arrival)
    (member : link ∈ query.graph.links)
    (usable : Scalar.isFinite (query.cost.travelTime link arrival.time) = true)
    (dearer : (state.labels.get link.origin).cost ≤ arrival.cost)
    (same : query.cost.disutility link (state.labels.get link.origin).time =
      query.cost.disutility link arrival.time) :
    (state.labels.get link.destination).cost ≤ (arrival.along query.cost link).cost := by
  have settled := relaxed.settled_of_journey unpruned exhausted priced prices alwaysOpen starts
    journey
  have passes := (relaxed.passes unpruned exhausted priced prices alwaysOpen starts
    member settled (journey.time_finite ⟨start, starts⟩) usable).2
  rcases journey.time_finite ⟨start, starts⟩ with ⟨time, timeEq⟩
  rw [timeEq] at usable
  rcases prices link member time usable with ⟨price, -, priceEq⟩
  rcases relaxed.cost_finite _ (relaxed.found_of_settled settled) with ⟨cost, -, costEq⟩
  rw [starts] at journey
  rcases journey.cost_finite prices start with ⟨total, -, totalEq⟩
  rw [costEq, totalEq, Exact.finite_le_finite] at dearer
  rw [same, costEq, timeEq, priceEq, Exact.finite_add_finite] at passes
  rw [Arrival.along, totalEq, timeEq, priceEq, Exact.finite_add_finite]
  apply Exact.le_trans passes
  rw [Exact.finite_le_finite]
  exact add_le_add_left dearer price

/-- A link that costs the same at both times is of no use for overtaking. -/
theorem Overtakes.disutility_ne {links : List (Graph.Link (Exact K))}
    {arrival : Arrival (Exact K)} {link : Graph.Link (Exact K)}
    (overtakes : Overtakes query state links arrival link) :
    query.cost.disutility link (state.labels.get link.origin).time ≠
      query.cost.disutility link arrival.time := by
  intro same
  have notDearer := relaxed.label_le_along unpruned exhausted priced prices alwaysOpen starts
    overtakes.journey overtakes.member overtakes.usable overtakes.dearer same
  exact Exact.lt_irrefl _ (Exact.lt_of_le_of_lt notDearer overtakes.cheaper)

/-- The labels are least costs exactly if no journey overtakes one. -/
theorem Relaxed.leastCosts_iff :
    (∀ node links arrival, Journey query.graph query.cost query.source
        (Arrival.departure query.start) links node arrival →
      (state.labels.get node).cost ≤ arrival.cost) ↔
    ¬ ∃ links arrival link, Overtakes query state links arrival link := by
  constructor
  · rintro least ⟨links, arrival, link, overtakes⟩
    have atMost := least _ _ _ (overtakes.journey.go overtakes.member rfl overtakes.usable)
    exact Exact.lt_irrefl _ (Exact.lt_of_le_of_lt atMost overtakes.cheaper)
  · intro notOvertaken node links arrival journey
    induction journey with
    | stay => exact relaxed.source_cost
    | @go links node here link before member leaves usable ih =>
        subst leaves
        have alongNonneg : 0 ≤ (here.along query.cost link).cost := by
          have whole := before.go member rfl usable
          rw [starts] at whole
          rcases whole.cost_finite prices start with ⟨total, nonneg, totalEq⟩
          rw [totalEq]
          exact Exact.finite_nonneg.mpr nonneg
        by_contra dearer
        have cheaper : (here.along query.cost link).cost <
            (state.labels.get link.destination).cost := by
          by_contra notLess
          exact dearer (Exact.le_of_not_lt (Exact.le_self_of_le alongNonneg)
            (Exact.le_self_of_le (relaxed.cost_nonneg _)) notLess)
        by_cases sameTime : (state.labels.get link.origin).time = here.time
        · have same := congrArg (query.cost.disutility link) sameTime
          exact dearer (relaxed.label_le_along unpruned exhausted priced prices alwaysOpen starts
            before member usable ih same)
        · exact notOvertaken ⟨links, here, link, before, member, usable, sameTime, ih, cheaper⟩

end

end Search

/-! ## Path trees -/

namespace PathTree

open Search

omit [IsStrictOrderedRing K]

/-- What a path tree reports for a node costs no more than any journey there. -/
def HasLeastCosts (tree : PathTree (Exact K)) (graph : Graph (Exact K))
    (model : CostModel (Exact K)) (source : Nat) (start : Exact K) : Prop :=
  ∀ node cost, tree.cost? node = some cost → ∀ links arrival,
    Journey graph model source (Arrival.departure start) links node arrival →
    cost ≤ arrival.cost

/-- A journey gets to the origin of a link at another time than a path tree
reports and at no lower cost, and the link then leads it to its destination at a
lower cost than the path tree reports. -/
structure IsOvertaken (tree : PathTree (Exact K)) (graph : Graph (Exact K))
    (model : CostModel (Exact K)) (source : Nat) (start : Exact K)
    (links : List (Graph.Link (Exact K))) (arrival : Arrival (Exact K))
    (link : Graph.Link (Exact K)) : Prop where
  journey : Journey graph model source (Arrival.departure start) links link.origin arrival
  member : link ∈ graph.links
  usable : Scalar.isFinite (model.travelTime link arrival.time) = true
  apart : tree.time? link.origin ≠ some arrival.time
  dearer : ∃ cost, tree.cost? link.origin = some cost ∧ cost ≤ arrival.cost
  cheaper : ∃ cost, tree.cost? link.destination = some cost ∧
    (arrival.along model link).cost < cost

variable {graph : Graph (Exact K)} {cost : CostModel (Exact K)}
  {landmarks : Option (Landmarks (Exact K))} {tree : PathTree (Exact K)}

/-- Path trees are overtaken exactly where their searches are. -/
theorem Answers.isOvertaken_iff {query : Query (Exact K)} {final : State (Exact K)}
    {answered : PathTree (Exact K)} (answers : Answers query final answered)
    (settled : ∀ {node arrival links}, Journey query.graph query.cost query.source
      (Arrival.departure query.start) links node arrival → answered.isReached node = true)
    {links : List (Graph.Link (Exact K))} {arrival : Arrival (Exact K)}
    {link : Graph.Link (Exact K)} :
    answered.IsOvertaken query.graph query.cost query.source query.start links arrival link ↔
      Overtakes query final links arrival link := by
  constructor
  · intro overtaken
    rcases overtaken.dearer with ⟨spent, spentEq, dearer⟩
    rcases overtaken.cheaper with ⟨reported, reportedEq, cheaper⟩
    have origin := settled overtaken.journey
    have destination := settled (overtaken.journey.go overtaken.member rfl overtaken.usable)
    have apart := overtaken.apart
    rw [cost?, if_pos origin, answers.label_eq, Option.some_inj] at spentEq
    rw [cost?, if_pos destination, answers.label_eq, Option.some_inj] at reportedEq
    rw [time?, if_pos origin, answers.label_eq, Ne, Option.some_inj] at apart
    subst spentEq reportedEq
    exact ⟨overtaken.journey, overtaken.member, overtaken.usable, apart, dearer, cheaper⟩
  · intro overtakes
    have origin := settled overtakes.journey
    have destination := settled (overtakes.journey.go overtakes.member rfl overtakes.usable)
    refine ⟨overtakes.journey, overtakes.member, overtakes.usable, ?_,
      ⟨_, ?_, overtakes.dearer⟩, ⟨_, ?_, overtakes.cheaper⟩⟩
    · rw [time?, if_pos origin, answers.label_eq, Ne, Option.some_inj]
      exact overtakes.apart
    · rw [cost?, if_pos origin, answers.label_eq]
    · rw [cost?, if_pos destination, answers.label_eq]

variable [IsStrictOrderedRing K]

/-- A search without bounds reports all nodes that journeys lead to.  It reports
least costs exactly if it is not overtaken, which can only happen on a link whose
cost depends on the time. -/
theorem calculate_hasLeastCosts_iff (wellFormed : graph.WellFormed)
    (priced : ∀ link ∈ graph.links, cost.prices link = true)
    (prices : cost.HasNonnegativePrices graph) (alwaysOpen : cost.IsAlwaysOpen graph)
    (used : Used graph cost landmarks tree) {source : Nat} (inside : source < graph.size)
    (start : K) :
    ∃ answered, tree.calculate source start .unbounded = .ok answered ∧
      (∀ node, (answered.cost? node).isSome = true ↔ ∃ links arrival,
        Journey graph cost source (Arrival.departure start) links node arrival) ∧
      (answered.HasLeastCosts graph cost source start ↔ ¬ ∃ links arrival link,
        answered.IsOvertaken graph cost source start links arrival link) ∧
      ∀ links arrival link, answered.IsOvertaken graph cost source start links arrival link →
        ∀ time, answered.time? link.origin = some time →
          cost.disutility link time ≠ cost.disutility link arrival.time := by
  rcases used.calculate_ok wellFormed priced inside (start : Exact K) .unbounded nofun with
    ⟨_, final, answered, blank, ran, done, answers⟩
  have plain : (queryOn graph cost landmarks source start .unbounded none).IsPlain :=
    isPlain_queryOn wellFormed prices.isNonnegative inside start .unbounded
  rcases run_exhausted blank ran plain rfl with ⟨levelled, unpruned, exhausted⟩
  have reached {node : Nat} {arrival : Arrival (Exact K)} {links : List (Graph.Link (Exact K))}
      (journey : Journey graph cost source (Arrival.departure start) links node arrival) :
      answered.isReached node = true := by
    rw [answers.isReached_eq (journey.node_lt wellFormed inside) (unpruned node)]
    exact levelled.settled_of_journey unpruned exhausted priced prices alwaysOpen rfl journey
  refine ⟨answered, done, ?_, ?_, ?_⟩
  · intro node
    constructor
    · intro found
      rw [isSome_cost?] at found
      have settled := settled_of_isReached found
      rw [answers.label_eq] at settled
      rcases levelled.realised node (levelled.found_of_settled settled) with ⟨links, journey⟩
      exact ⟨links, _, journey⟩
    · rintro ⟨links, arrival, journey⟩
      rw [isSome_cost?]
      exact reached journey
  · have least := levelled.leastCosts_iff unpruned exhausted priced prices alwaysOpen rfl
    rw [HasLeastCosts]
    constructor
    · rintro hasLeast ⟨links, arrival, link, overtaken⟩
      refine least.mp ?_ ⟨links, arrival, link, (answers.isOvertaken_iff reached).mp overtaken⟩
      intro node others other journey
      refine hasLeast node _ ?_ others other journey
      rw [cost?, if_pos (reached journey), answers.label_eq]
    · intro notOvertaken node spent spentEq links arrival journey
      rw [cost?, if_pos (reached journey), answers.label_eq, Option.some_inj] at spentEq
      subst spentEq
      refine least.mpr ?_ node links arrival journey
      rintro ⟨others, other, link, overtakes⟩
      exact notOvertaken ⟨others, other, link, (answers.isOvertaken_iff reached).mpr overtakes⟩
  · intro links arrival link overtaken time timeEq
    have overtakes := (answers.isOvertaken_iff reached).mp overtaken
    rw [time?, if_pos (reached overtakes.journey), answers.label_eq, Option.some_inj] at timeEq
    subst timeEq
    exact overtakes.disutility_ne levelled.toRelaxed unpruned exhausted priced prices alwaysOpen
      rfl

end PathTree

end JourneyTimes
