import JourneyTimes.Proofs.Search.Relaxed

/-!
# Every journey leaves the settled nodes through the frontier

Where costs are travel times and nobody arrives earlier by leaving later, being
at a node earlier is never worse.  A journey that goes from settled node to
settled node is then matched by their labels.  So it either ends at a settled
node whose label is as cheap, or it passes a node that waits with a label as
cheap as the journey is there.
-/

namespace JourneyTimes

variable {K : Type} [Field K] [LinearOrder K] [FloorRing K] [Trigonometry K]

/-- The cost of a link is the time that it takes. -/
structure CostModel.CostsTime (cost : CostModel (Exact K)) (graph : Graph (Exact K)) :
    Prop where
  disutility_eq : ∀ link ∈ graph.links, ∀ time : K,
    cost.disutility link time = cost.travelTime link time
  nonneg : ∀ link ∈ graph.links, ∀ time : K, 0 ≤ cost.travelTime link time

/-- Whoever enters a link later does not leave it earlier. -/
def CostModel.IsFirstInFirstOut (cost : CostModel (Exact K)) (graph : Graph (Exact K)) :
    Prop :=
  ∀ link ∈ graph.links, ∀ early late : K, early ≤ late →
    (early : Exact K) + cost.travelTime link early ≤
      (late : Exact K) + cost.travelTime link late

theorem CostModel.CostsTime.isNonnegative {cost : CostModel (Exact K)}
    {graph : Graph (Exact K)} (costsTime : cost.CostsTime graph) :
    cost.IsNonnegative graph := by
  intro link member time _
  rw [costsTime.disutility_eq link member]
  exact costsTime.nonneg link member time

/-- Links take some seconds, and the last one of `Graph.triangle` opens at noon. -/
def CostModel.gated : CostModel (Exact ℚ) where
  travelTime link time :=
    match time with
    | .finite time => if link.index = 2 then ↑(max (43200 - time) 0 + 50) else ↑(10 : ℚ)
    | _ => Scalar.infinity
  disutility link time :=
    match time with
    | .finite time => if link.index = 2 then ↑(max (43200 - time) 0 + 50) else ↑(10 : ℚ)
    | _ => Scalar.infinity
  minimum link := if link.index = 2 then ↑(50 : ℚ) else ↑(10 : ℚ)

theorem CostModel.gated_costsTime (graph : Graph (Exact ℚ)) :
    CostModel.gated.CostsTime graph where
  disutility_eq _ _ _ := rfl
  nonneg link _ time := by
    rw [gated]
    dsimp only
    split_ifs
    · have waiting := le_max_right (43200 - time) 0
      rw [Exact.finite_nonneg]
      linarith
    · rw [Exact.finite_nonneg]
      norm_num

theorem CostModel.gated_isFirstInFirstOut (graph : Graph (Exact ℚ)) :
    CostModel.gated.IsFirstInFirstOut graph := by
  intro link _ early late before
  rw [gated]
  dsimp only
  split_ifs
  · rw [Exact.finite_add_finite, Exact.finite_add_finite, Exact.finite_le_finite]
    have earlyLeaves : max (43200 - early) 0 ≤ max (43200 - late) 0 + (late - early) := by
      apply max_le
      · have waits := le_max_left (43200 - late) 0
        linarith
      · have waits := le_max_right (43200 - late) 0
        linarith
    linarith
  · rw [Exact.finite_add_finite, Exact.finite_add_finite, Exact.finite_le_finite]
    linarith

variable [IsStrictOrderedRing K]

omit [IsStrictOrderedRing K] in
/-- A link that can be used late can be used early, to arrive no later. -/
theorem CostModel.IsFirstInFirstOut.arrives {cost : CostModel (Exact K)}
    {graph : Graph (Exact K)} (fifo : cost.IsFirstInFirstOut graph)
    (costsTime : cost.CostsTime graph) {link : Graph.Link (Exact K)}
    (member : link ∈ graph.links) {early late duration : K} (before : early ≤ late)
    (takes : cost.travelTime link late = duration) :
    ∃ earlyDuration : K, cost.travelTime link early = earlyDuration ∧
      early + earlyDuration ≤ late + duration := by
  have order := fifo link member early late before
  rw [takes] at order
  rcases Exact.nonneg_iff.mp (costsTime.nonneg link member early) with endless | ⟨value, -, same⟩
  · rw [endless] at order
    simp [Exact.le_iff, Exact.isAtMost] at order
  · rw [same] at order
    exact ⟨value, same, by simpa using order⟩

/-- A journey costs the time that it takes. -/
theorem Journey.costs_time {graph : Graph (Exact K)} {cost : CostModel (Exact K)}
    (costsTime : cost.CostsTime graph) {origin node : Nat}
    {departure arrival : Arrival (Exact K)} {links : List (Graph.Link (Exact K))}
    (spent start : K) (departureCost : departure.cost = spent)
    (departureTime : departure.time = start)
    (journey : Journey graph cost origin departure links node arrival) :
    ∃ duration : K, 0 ≤ duration ∧ arrival.cost = ↑(spent + duration) ∧
      arrival.time = ↑(start + duration) := by
  induction journey with
  | stay => exact ⟨0, le_rfl, by rw [departureCost, add_zero], by rw [departureTime, add_zero]⟩
  | @go links node here link _ member _ usable ih =>
      rcases ih with ⟨before, beforeNonneg, costEq, timeEq⟩
      rcases Exact.isFinite_iff.mp usable with ⟨duration, takes⟩
      have nonneg := costsTime.nonneg link member (start + before)
      have same := costsTime.disutility_eq link member (start + before)
      rw [timeEq] at takes
      rw [takes, Exact.finite_nonneg] at nonneg
      refine ⟨before + duration, add_nonneg beforeNonneg nonneg, ?_, ?_⟩
      · rw [Arrival.along, costEq, timeEq, same, takes, Exact.finite_add_finite, add_assoc]
      · rw [Arrival.along, timeEq, takes, Exact.finite_add_finite, add_assoc]

namespace Search

variable {query : Query (Exact K)}

/-- The label of a node tells when a journey arrives there that has cost as
much. -/
theorem Relaxed.label_costs_time {state : State (Exact K)} (relaxed : Relaxed query state)
    (costsTime : query.cost.CostsTime query.graph) {start : K} (starts : query.start = start)
    {node : Nat} (found : IsFound query state node) :
    ∃ duration : K, 0 ≤ duration ∧ (state.labels.get node).cost = duration ∧
      (state.labels.get node).time = ↑(start + duration) := by
  rcases relaxed.realised node found with ⟨links, journey⟩
  rcases journey.costs_time costsTime 0 start rfl starts with ⟨duration, nonneg, costEq, timeEq⟩
  exact ⟨duration, nonneg, by simpa [Label.arrival] using costEq, timeEq⟩

omit [IsStrictOrderedRing K] in
/-- A node that is labelled with a finite cost has been found. -/
theorem Relaxed.found_of_cost_le {state : State (Exact K)} (relaxed : Relaxed query state)
    {node : Nat} {bound : K} (cheap : (state.labels.get node).cost ≤ bound) :
    IsFound query state node := by
  by_contra unfound
  rw [relaxed.unknown node unfound] at cheap
  simp [Label.unknown, Exact.infinity_eq, Exact.le_iff, Exact.isAtMost] at cheap

/-- A link that a journey takes from a settled node leads to a label as cheap as
the journey, if the label of the settled node is. -/
theorem Relaxed.follow {state : State (Exact K)} (relaxed : Relaxed query state)
    (priced : ∀ link ∈ query.graph.links, query.cost.prices link = true)
    (costsTime : query.cost.CostsTime query.graph)
    (fifo : query.cost.IsFirstInFirstOut query.graph) {start : K} (starts : query.start = start)
    {here : Arrival (Exact K)} {links : List (Graph.Link (Exact K))}
    {link : Graph.Link (Exact K)}
    (before : Journey query.graph query.cost query.source (Arrival.departure query.start)
      links link.origin here)
    (member : link ∈ query.graph.links)
    (usable : Scalar.isFinite (query.cost.travelTime link here.time) = true)
    (settled : (state.labels.get link.origin).settled = true)
    (cheap : (state.labels.get link.origin).cost ≤ here.cost) :
    (state.labels.get link.destination).cost ≤ (here.along query.cost link).cost := by
  rcases before.costs_time costsTime 0 start rfl starts with ⟨spent, -, hereCost, hereTime⟩
  rw [zero_add] at hereCost
  have found : IsFound query state link.origin := relaxed.found_of_cost_le (hereCost ▸ cheap)
  rcases relaxed.label_costs_time costsTime starts found with ⟨least, -, leastCost, leastTime⟩
  -- The label is there no later than the journey, so the link serves it too.
  have earlier : least ≤ spent := by
    rw [leastCost, hereCost] at cheap
    simpa using cheap
  rcases Exact.isFinite_iff.mp usable with ⟨duration, takes⟩
  rw [hereTime] at takes
  rcases fifo.arrives costsTime member (add_le_add_right earlier start) takes with
    ⟨earlyDuration, earlyTakes, order⟩
  have uses : query.uses (state.labels.get link.origin) link = true := by
    rw [Query.uses, priced link member, leastTime, earlyTakes]
    rfl
  have offerCost : (query.offer (state.labels.get link.origin) link).cost =
      ↑(least + earlyDuration) := by
    rw [Query.offer, extend, leastCost, leastTime, costsTime.disutility_eq link member,
      earlyTakes, Exact.finite_add_finite]
  have alongCost : (here.along query.cost link).cost = ↑(spent + duration) := by
    rw [Arrival.along, hereCost, hereTime, costsTime.disutility_eq link member, takes,
      Exact.finite_add_finite]
  apply Exact.le_trans (relaxed.relaxed link member settled uses)
  rw [offerCost, alongCost, Exact.finite_le_finite]
  linarith

/-- A journey passes a node that waits with a label as cheap as the journey is
there. -/
def Crosses (query : Query (Exact K)) (state : State (Exact K)) (node : Nat)
    (arrival : Arrival (Exact K)) : Prop :=
  ∃ waiting change first rest, IsWaiting query state waiting ∧
    (state.labels.get waiting).cost ≤ change.cost ∧
    Journey query.graph query.cost query.source (Arrival.departure query.start)
      first waiting change ∧
    Journey query.graph query.cost waiting change rest node arrival

/-- A journey ends at a settled node that has a label as cheap, or crosses the
frontier. -/
theorem Relaxed.cut {state : State (Exact K)} (relaxed : Relaxed query state)
    (unpruned : ∀ node, (state.labels.get node).pruned = false)
    (priced : ∀ link ∈ query.graph.links, query.cost.prices link = true)
    (costsTime : query.cost.CostsTime query.graph)
    (fifo : query.cost.IsFirstInFirstOut query.graph) {start : K} (starts : query.start = start)
    {node : Nat} {arrival : Arrival (Exact K)} {links : List (Graph.Link (Exact K))}
    (journey : Journey query.graph query.cost query.source (Arrival.departure query.start)
      links node arrival) :
    ((state.labels.get node).settled = true ∧
        (state.labels.get node).cost ≤ arrival.cost) ∨
      Crosses query state node arrival := by
  have arriveAt {node : Nat} {arrival : Arrival (Exact K)} {links : List (Graph.Link (Exact K))}
      (journey : Journey query.graph query.cost query.source
        (Arrival.departure query.start) links node arrival)
      (cheap : (state.labels.get node).cost ≤ arrival.cost) :
      ((state.labels.get node).settled = true ∧
          (state.labels.get node).cost ≤ arrival.cost) ∨
        Crosses query state node arrival := by
    rcases journey.costs_time costsTime 0 start rfl starts with ⟨spent, -, costEq, -⟩
    have found := relaxed.found_of_cost_le (costEq ▸ cheap)
    cases settled : (state.labels.get node).settled with
    | true => exact .inl ⟨rfl, cheap⟩
    | false =>
        exact .inr ⟨node, arrival, _, [], ⟨found, settled, unpruned node⟩, cheap,
          journey, .stay⟩
  induction journey with
  | stay => exact arriveAt .stay relaxed.source_cost
  | @go links origin here link before member leaves usable ih =>
      rcases ih with ⟨settled, cheap⟩ | ⟨waiting, change, first, rest, waits, cheap, upto, onwards⟩
      · subst leaves
        exact arriveAt (before.go member rfl usable)
          (relaxed.follow priced costsTime fifo starts before member usable settled cheap)
      · exact .inr ⟨waiting, change, first, rest ++ [link], waits, cheap, upto,
          onwards.go member leaves usable⟩

end Search

end JourneyTimes
