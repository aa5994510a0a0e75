import JourneyTimes.Proofs.Search.GuidedPath
import JourneyTimes.Proofs.Search.Solved

/-!
# Searches that agree

A search without a goal takes nodes in the order of their costs, and a search for a
goal in the order of costs and potential.  Where several ways to a node cost the same,
each of them keeps the way that it finds first.  These may take different times, and
then everything beyond the node may differ.

So the two agree where ties do not matter: if links that lead to a node at the cost
of its label lead there at the time of its label too.  Then a search with a consistent
potential gives the nodes that matter, when it settles them, the cost and the time that
the search without a goal gives them.  This is proved of any labels that no link
improves and that come from each other.
-/

namespace JourneyTimes

variable {K : Type} [Field K] [LinearOrder K] [FloorRing K] [Trigonometry K]

namespace Search

/-! ## Charts -/

/-- Labels which come from each other along links from the source, and which no link
improves. -/
structure Chart (query : Query (Exact K)) (label : Nat → Label (Exact K)) : Prop where
  departs : (label query.source).arrival = Arrival.departure query.start
  cost_finite : ∀ links node, Traced query label links node →
    ∃ cost : K, (label node).cost = cost
  relaxed : ∀ links link, Traced query label links link.origin → link ∈ query.graph.links →
    Scalar.isFinite (query.cost.travelTime link (label link.origin).time) = true →
    (label link.destination).cost ≤ (query.offer (label link.origin) link).cost
  traced_of_le : ∀ (node : Nat) (bound : K), (label node).cost ≤ bound →
    ∃ links, Traced query label links node

/-- Links that lead to a node at the cost of its label lead there at the time of its
label. -/
def HasEvenTies (query : Query (Exact K)) (label : Nat → Label (Exact K)) : Prop :=
  ∀ links way link, Traced query label links link.origin →
    Traced query label way link.destination → link ∈ query.graph.links →
    link.destination ≠ query.source →
    Scalar.isFinite (query.cost.travelTime link (label link.origin).time) = true →
    (query.offer (label link.origin) link).cost = (label link.destination).cost →
    (query.offer (label link.origin) link).time = (label link.destination).time

/-- A label says the same about cost and time as that of a node to which labels come. -/
structure IsCharted (query : Query (Exact K)) (label : Nat → Label (Exact K)) (node : Nat)
    (found : Label (Exact K)) : Prop where
  traced : ∃ links, Traced query label links node
  cost_eq : found.cost = (label node).cost
  time_eq : found.time = (label node).time

/-- The nodes that matter and have been settled have the labels of a chart. -/
def Agrees (query : Query (Exact K)) (matters : Nat → Prop) (label : Nat → Label (Exact K))
    (state : State (Exact K)) : Prop :=
  ∀ node, matters node → (state.labels.get node).settled = true →
    IsCharted query label node (state.labels.get node)

variable {query : Query (Exact K)} {goal : Nat} {matters : Nat → Prop} {record : List Nat}
  {state : State (Exact K)} {label : Nat → Label (Exact K)}

/-- A link along which labels come leads between nodes at finite costs, so it has one. -/
theorem Chart.disutility_finite (chart : Chart query label)
    (starts : ∃ start : K, query.start = start) {links : List (Graph.Link (Exact K))}
    {link : Graph.Link (Exact K)} (before : Traced query label links link.origin)
    (comes : Comes query label link) :
    ∃ spent time price : K, (label link.origin).cost = spent ∧ (label link.origin).time = time ∧
      query.cost.disutility link time = price ∧
        (label link.destination).cost = ↑(spent + price) := by
  rcases chart.cost_finite _ _ before with ⟨spent, spentEq⟩
  rcases chart.cost_finite _ _ (before.go comes) with ⟨total, totalEq⟩
  rcases (before.journey chart.departs).time_finite starts with ⟨time, timeEq⟩
  have timeEq : (label link.origin).time = time := timeEq
  have sum : (label link.destination).cost =
      (label link.origin).cost + query.cost.disutility link (label link.origin).time :=
    congrArg Arrival.cost comes.arrival_eq
  rw [totalEq, spentEq, timeEq] at sum
  cases priceEq : query.cost.disutility link (time : Exact K) with
  | finite price =>
      rw [priceEq, Exact.finite_add_finite] at sum
      exact ⟨spent, time, price, spentEq, timeEq, priceEq, totalEq.trans sum⟩
  | _ => rw [priceEq] at sum; cases sum

/-- What a link offers from a label that says the same as the chart. -/
theorem IsCharted.offer_eq {link : Graph.Link (Exact K)}
    (charted : IsCharted query label link.origin (state.labels.get link.origin)) :
    (query.offer (state.labels.get link.origin) link).cost =
        (query.offer (label link.origin) link).cost ∧
      (query.offer (state.labels.get link.origin) link).time =
        (query.offer (label link.origin) link).time := by
  rw [Query.offer, Query.offer, extend, extend, charted.cost_eq, charted.time_eq]
  exact ⟨rfl, rfl⟩

variable [IsStrictOrderedRing K]

section Step

variable (chart : Chart query label) (consistent : query.IsConsistent goal matters)
  (priced : ∀ link ∈ query.graph.links, query.cost.prices link = true)
  (orderly : Orderly query matters record state) (agrees : Agrees query matters label state)

include chart consistent priced orderly agrees

/-- Labels come to a node that matters along settled nodes, or else one waits on the way
with a key that is no greater. -/
theorem settled_or_waits {links : List (Graph.Link (Exact K))} {node : Nat}
    (traced : Traced query label links node) (nodeMatters : matters node) :
    (state.labels.get node).settled = true ∨ ∃ other, IsWaiting query state other ∧
      (state.labels.get other).cost + query.potential other ≤
        (label node).cost + query.potential node := by
  have waits {other : Nat} {bound : K} (cheap : (state.labels.get other).cost ≤ bound) :
      (state.labels.get other).settled = true ∨ IsWaiting query state other ∧
        (state.labels.get other).cost + query.potential other ≤
          bound + query.potential other := by
    have found := orderly.found_of_cost_le cheap
    cases settled : (state.labels.get other).settled with
    | true => exact .inl rfl
    | false =>
        rcases orderly.cost_finite other found with ⟨cost, -, costEq⟩
        rcases consistent.potential_finite other with ⟨ahead, -, aheadEq⟩
        refine .inr ⟨⟨found, settled, orderly.unpruned other⟩, ?_⟩
        rw [costEq, Exact.finite_le_finite] at cheap
        rw [costEq, aheadEq, Exact.finite_add_finite, Exact.finite_add_finite,
          Exact.finite_le_finite]
        linarith
  induction traced with
  | stay =>
      have costsNothing : (label query.source).cost = 0 := congrArg Arrival.cost chart.departs
      rw [costsNothing]
      exact (waits orderly.source_cost).imp_right fun known => ⟨_, known⟩
  | @go links link before comes ih =>
      rcases chart.disutility_finite consistent.start_finite before comes with
        ⟨spent, time, price, spentEq, timeEq, priceEq, totalEq⟩
      have usable := comes.usable
      rw [timeEq] at usable
      have originMatters := consistent.origin_matters link comes.member nodeMatters time usable
        (by rw [priceEq]; rfl)
      rcases ih originMatters with settled | ⟨other, otherWaits, keyLe⟩
      · have charted := agrees _ originMatters settled
        have uses : query.uses (state.labels.get link.origin) link = true := by
          rw [Query.uses, priced link comes.member, charted.time_eq, timeEq, usable]
          rfl
        have cheap := orderly.relaxed link comes.member settled uses
        rw [charted.offer_eq.1, Query.offer, extend, spentEq, timeEq, priceEq,
          Exact.finite_add_finite] at cheap
        rw [totalEq]
        exact (waits cheap).imp_right fun known => ⟨_, known⟩
      · refine .inr ⟨other, otherWaits, Exact.le_trans keyLe ?_⟩
        have falls := consistent.potential_le link comes.member nodeMatters time usable
        rcases consistent.potential_finite link.origin with ⟨here, -, hereEq⟩
        rcases consistent.potential_finite link.destination with ⟨ahead, -, aheadEq⟩
        rw [hereEq, priceEq, aheadEq, Exact.finite_add_finite, Exact.finite_le_finite] at falls
        rw [spentEq, totalEq, hereEq, aheadEq, Exact.finite_add_finite, Exact.finite_add_finite,
          Exact.finite_le_finite]
        linarith

variable (ties : HasEvenTies query label) {node : Nat} {rest : Frontier (Exact K)}
  (popped : state.frontier.pop? = some (node, rest))

include ties popped

/-- A node that matters comes out of the frontier with the label of the chart. -/
theorem isCharted_popped (nodeMatters : matters node) :
    IsCharted query label node (state.labels.get node) := by
  rcases orderly.popped_found consistent.wellFormed consistent.source_lt popped with ⟨waits, -⟩
  by_cases isSource : node = query.source
  · subst isSource
    have same := orderly.origin_arrival.trans chart.departs.symm
    exact ⟨⟨[], .stay⟩, Label.cost_congr same, Label.time_congr same⟩
  · rcases orderly.comes node nodeMatters isSource waits.1 with
      ⟨link, comes, rfl, originMatters, originSettled⟩
    have charted := agrees _ originMatters originSettled
    rcases charted.traced with ⟨links, before⟩
    have costEq : (state.labels.get link.destination).cost =
        (query.offer (label link.origin) link).cost :=
      (congrArg Arrival.cost comes.arrival_eq).trans charted.offer_eq.1
    have timeEq : (state.labels.get link.destination).time =
        (query.offer (label link.origin) link).time :=
      (congrArg Arrival.time comes.arrival_eq).trans charted.offer_eq.2
    have usable := comes.usable
    rw [charted.time_eq] at usable
    have atMost := chart.relaxed links link before comes.member usable
    rw [← costEq] at atMost
    rcases orderly.cost_finite _ waits.1 with ⟨cost, -, finite⟩
    rcases chart.traced_of_le link.destination cost (finite ▸ atMost) with ⟨way, traced⟩
    rcases settled_or_waits chart consistent priced orderly agrees traced nodeMatters with
      settled | ⟨other, otherWaits, keyLe⟩
    · exact absurd settled waits.not_settled
    · have keys := Exact.le_trans
        (orderly.popped_key_le consistent.toIsRegular popped otherWaits) keyLe
      rcases chart.cost_finite _ _ traced with ⟨least, leastEq⟩
      rcases consistent.potential_finite link.destination with ⟨ahead, -, aheadEq⟩
      have same : (state.labels.get link.destination).cost = (label link.destination).cost := by
        apply Exact.le_antisymm _ atMost
        rw [finite, leastEq, aheadEq, Exact.finite_add_finite, Exact.finite_add_finite,
          Exact.finite_le_finite] at keys
        rw [finite, leastEq, Exact.finite_le_finite]
        linarith
      refine ⟨⟨way, traced⟩, same, timeEq.trans ?_⟩
      exact ties links way link before traced comes.member isSource usable
        (costEq.symm.trans same)

theorem agrees_close : Agrees query matters label (close query node rest state) := by
  have nodeInside :=
    (orderly.popped_found consistent.wellFormed consistent.source_lt popped).2
  intro other otherMatters settled
  rw [get_close query orderly.valid nodeInside] at settled ⊢
  split_ifs at settled ⊢ with isNode
  · subst isNode
    rcases isCharted_popped chart consistent priced orderly agrees ties popped otherMatters with
      ⟨traced, costEq, timeEq⟩
    exact ⟨traced, costEq, timeEq⟩
  · exact agrees other otherMatters settled

theorem agrees_expand : Agrees query matters label (expand query node rest state) := by
  intro other otherMatters settled
  have closed := (orderly.settled_expand consistent popped otherMatters).mp settled
  rw [orderly.expand_frozen consistent popped otherMatters closed]
  exact agrees_close chart consistent priced orderly agrees ties popped other otherMatters closed

end Step

/-- A search with a consistent potential settles its goal if a chart leads there, and then
gives it the cost and the time of the chart. -/
theorem run_agrees (chart : Chart query label) (ties : HasEvenTies query label)
    (consistent : query.IsConsistent goal matters)
    (priced : ∀ link ∈ query.graph.links, query.cost.prices link = true)
    {scratch : Scratch (Exact K)} (blank : Blank query.graph.size scratch)
    {final : State (Exact K)} (ran : run query scratch = .ok final) :
    ((final.labels.get goal).settled = true ↔
      ∃ links, Traced query label links goal) ∧
    Agrees query matters label final := by
  have keeps {state next : State (Exact K)}
      (holds : ∃ record, Orderly query matters record state ∧ Agrees query matters label state)
      (step : Step query state next) :
      ∃ record, Orderly query matters record next ∧ Agrees query matters label next := by
    rcases holds with ⟨record, orderly, agrees⟩
    cases step with
    | prune _ beyond =>
        rw [isBeyond, consistent.keepsAll] at beyond
        cases beyond
    | expand popped _ _ =>
        exact ⟨_, orderly.expand consistent popped,
          agrees_expand chart consistent priced orderly agrees ties popped⟩
  have first : Agrees query matters label (initial query scratch) := by
    intro node _ settled
    rw [get_initial blank consistent.source_lt] at settled
    split_ifs at settled <;> cases settled
  rcases ends_of_run ran with ⟨last, reaches, ends⟩
  rcases reaches.keeps _ keeps ⟨[], .initial consistent.toIsGuided blank, first⟩ with
    ⟨record, orderly, agrees⟩
  have awaitsNothing := awaited_of_reaches (by rw [consistent.unbounded]; rfl) reaches
  cases ends with
  | exhausted exhausted =>
      refine ⟨⟨fun settled => (agrees goal consistent.goal_matters settled).traced, ?_⟩, agrees⟩
      rintro ⟨links, traced⟩
      rcases settled_or_waits chart consistent priced orderly agrees traced
          consistent.goal_matters with
        settled | ⟨other, waits, -⟩
      · exact settled
      · exact absurd waits (orderly.not_waiting exhausted other)
  | @arrived node rest popped _ ended =>
      obtain rfl : goal = node := by
        simpa [isOver, close, settle, awaitsNothing, consistent.goal_eq] using ended
      have closed := agrees_close chart consistent priced orderly agrees ties popped
      have nodeInside :=
        (orderly.popped_found consistent.wellFormed consistent.source_lt popped).2
      have settled := (get_close_settled query orderly.valid nodeInside rest goal).mpr (.inl rfl)
      exact ⟨⟨fun _ => (closed goal consistent.goal_matters settled).traced, fun _ => settled⟩,
        closed⟩

/-! ## The chart of a search without a goal -/

section

variable {plain : Query (Exact K)} (relaxed : Relaxed plain state)
  (unpruned : ∀ node, (state.labels.get node).pruned = false)
  (exhausted : state.frontier.pop? = none)

include relaxed unpruned exhausted

omit [IsStrictOrderedRing K] in
/-- When nothing waits any more, the nodes to which labels come are settled. -/
theorem settled_of_traced {links : List (Graph.Link (Exact K))} {node : Nat}
    (traced : Traced plain state.labels.get links node) :
    (state.labels.get node).settled = true := by
  apply relaxed.settled_of_found exhausted unpruned
  cases traced with
  | stay => exact .inl rfl
  | go _ comes => exact .inr (by rw [comes.via_eq]; rfl)

omit [IsStrictOrderedRing K] in
theorem chart_of_exhausted (rooted : Rooted plain state)
    (priced : ∀ link ∈ plain.graph.links, plain.cost.prices link = true) :
    Chart plain state.labels.get where
  departs := rooted.origin_arrival
  cost_finite := by
    intro links node traced
    have settled := settled_of_traced relaxed unpruned exhausted traced
    rcases relaxed.cost_finite node (relaxed.found_of_settled settled) with ⟨cost, -, costEq⟩
    exact ⟨cost, costEq⟩
  relaxed := by
    intro links link before member usable
    have settled := settled_of_traced relaxed unpruned exhausted before
    exact relaxed.relaxed link member settled (by rw [Query.uses, priced link member, usable]; rfl)
  traced_of_le := by
    intro node bound cheap
    have settled := relaxed.settled_of_found exhausted unpruned (relaxed.found_of_cost_le cheap)
    rcases rooted.exists_simple settled with ⟨links, traced, -⟩
    exact ⟨links, traced⟩

end

omit [IsStrictOrderedRing K] in
/-- Where labels come from does not depend on what a search is looking for. -/
theorem Traced.retarget {links : List (Graph.Link (Exact K))} {node : Nat}
    (traced : Traced query label links node) (bounds : SearchBounds (Exact K))
    (goal : Option Nat) (potential : Nat → Exact K) :
    Traced { query with bounds, goal, potential } label links node := by
  induction traced with
  | stay => exact .stay
  | go _ comes ih =>
      exact ih.go ⟨comes.member, comes.usable, comes.via_eq, comes.arrival_eq⟩

omit [IsStrictOrderedRing K] in
theorem Chart.retarget (chart : Chart query label) (bounds : SearchBounds (Exact K))
    (goal : Option Nat) (potential : Nat → Exact K) :
    Chart { query with bounds, goal, potential } label where
  departs := chart.departs
  cost_finite links node traced :=
    chart.cost_finite links node (traced.retarget query.bounds query.goal query.potential)
  relaxed links link before :=
    chart.relaxed links link (before.retarget query.bounds query.goal query.potential)
  traced_of_le node bound cheap :=
    (chart.traced_of_le node bound cheap).imp fun _ traced => traced.retarget bounds goal potential

end Search

/-! ## Path trees -/

namespace PathTree

open Search

/-- Links that lead from one node that a path tree reports to another one, at the cost which
it reports, lead there at the time which it reports. -/
def HasEvenTies (tree : PathTree (Exact K)) (graph : Graph (Exact K))
    (model : CostModel (Exact K)) (source : Nat) : Prop :=
  ∀ link ∈ graph.links, link.destination ≠ source →
    tree.isReached link.origin = true → tree.isReached link.destination = true →
    Scalar.isFinite (model.travelTime link (tree.label link.origin).time) = true →
    (tree.label link.origin).cost + model.disutility link (tree.label link.origin).time =
      (tree.label link.destination).cost →
    (tree.label link.origin).time + model.travelTime link (tree.label link.origin).time =
      (tree.label link.destination).time

instance (tree : PathTree (Exact K)) (graph : Graph (Exact K)) (model : CostModel (Exact K))
    (source : Nat) : Decidable (tree.HasEvenTies graph model source) := by
  unfold HasEvenTies
  infer_instance

variable {graph : Graph (Exact K)} {cost : CostModel (Exact K)}
  {landmarks : Option (Landmarks (Exact K))} {tree : PathTree (Exact K)}

/-- Even ties of what a path tree reports are even ties of its labels. -/
theorem HasEvenTies.of_labels {query : Query (Exact K)} {swept : PathTree (Exact K)}
    (ties : swept.HasEvenTies query.graph query.cost query.source)
    (reached : ∀ node, swept.isReached node = true ↔
      ∃ links, Traced query swept.label links node) : Search.HasEvenTies query swept.label := by
  intro links way link before traced member apart usable costEq
  exact ties link member apart ((reached _).mpr ⟨links, before⟩) ((reached _).mpr ⟨way, traced⟩)
    usable costEq

variable [IsStrictOrderedRing K]

/-- What a path tree knows after a search without bounds is a chart.  It reports the nodes to
which labels come, at a number of seconds. -/
theorem Used.chart_of_calculate (used : Used graph cost landmarks tree)
    (wellFormed : graph.WellFormed)
    (priced : ∀ link ∈ graph.links, cost.prices link = true)
    (nonneg : cost.IsNonnegative graph) {source : Nat} {start : K} {swept : PathTree (Exact K)}
    (done : tree.calculate source (start : Exact K) .unbounded = .ok swept) :
    Chart (queryOn graph cost landmarks source start .unbounded none) swept.label ∧
      (∀ node, swept.isReached node = true ↔ ∃ links,
        Traced (queryOn graph cost landmarks source start .unbounded none) swept.label
          links node) ∧
      ∀ node time, swept.time? node = some time → ∃ seconds : K, time = seconds := by
  have ready := used.ready
  have inside : source < graph.size := ready.graph_eq ▸ lt_of_calculate done
  rcases ready.answers_of_search (search_of_calculate done) with ⟨_, final, blank, ran, answers⟩
  have plain : (queryOn graph cost landmarks source start .unbounded none).IsPlain :=
    isPlain_queryOn wellFormed nonneg inside start .unbounded
  rcases run_exhausted blank ran plain rfl with ⟨levelled, unpruned, exhausted⟩
  have rooted : Rooted (queryOn graph cost landmarks source start .unbounded none) final :=
    run_rooted wellFormed inside rfl blank ran
  have same : swept.label = final.labels.get := funext answers.label_eq
  have reached (node : Nat) : swept.isReached node = true ↔
      (final.labels.get node).settled = true :=
    answers.isReached_iff_of_settled fun settled =>
      ⟨lt_of_waits levelled.toSound wellFormed inside (levelled.found_of_settled settled),
        unpruned node⟩
  rw [same]
  refine ⟨chart_of_exhausted levelled.toRelaxed unpruned exhausted rooted priced, ?_, ?_⟩
  · intro node
    rw [reached]
    constructor
    · intro settled
      rcases rooted.exists_simple settled with ⟨links, traced, -⟩
      exact ⟨links, traced⟩
    · rintro ⟨links, traced⟩
      exact settled_of_traced levelled.toRelaxed unpruned exhausted traced
  · intro node time reported
    have isReached := isReached_of_time? reported
    rw [time?, if_pos isReached, answers.label_eq, Option.some_inj] at reported
    rw [← reported]
    exact levelled.time_finite plain.toIsRegular
      (levelled.found_of_settled ((reached node).mp isReached))

/-- Landmarks of a cost model that respects its minima guide a path tree to what another
one reports without any goal, where ties are even. -/
theorem calculatePath_agrees (wellFormed : graph.WellFormed)
    (priced : ∀ link ∈ graph.links, cost.prices link = true)
    (respects : cost.RespectsMinima graph) {number : Nat} {selection : Selection}
    {prepared : Landmarks (Exact K)}
    (preprocessed : Landmarks.preprocess graph cost number selection = .ok prepared)
    {guided : PathTree (Exact K)} (guidedUsed : Used graph cost (some prepared) guided)
    (used : Used graph cost landmarks tree) {origin destination : Nat}
    (destinationInside : destination < graph.size) {start : K} {swept : PathTree (Exact K)}
    (done : tree.calculate origin (start : Exact K) .unbounded = .ok swept)
    (ties : swept.HasEvenTies graph cost origin) :
    ∃ path answered, guided.calculatePath origin destination start = .ok (path, answered) ∧
      path.map (·.cost) = swept.cost? destination ∧
      path.map (·.travelTime) = (swept.time? destination).map (· - (start : Exact K)) := by
  have originInside : origin < graph.size := used.ready.graph_eq ▸ lt_of_calculate done
  have sound := Landmarks.preprocess_isSound wellFormed respects.minima preprocessed
  have consistent :=
    isConsistent_queryOn wellFormed respects sound originInside start destination
  have nonneg := respects.isNonnegative.isNonnegativeFrom origin ⟨start, rfl⟩
  rcases guidedUsed.calculatePath_guided wellFormed priced originInside destinationInside nonneg
    with ⟨_, final, answered, blank, ran, calculated, leads, answers⟩
  rcases used.chart_of_calculate wellFormed priced respects.isNonnegative done with
    ⟨chart, reached, -⟩
  have retargeted : ∀ node, swept.isReached node = true ↔ ∃ links,
      Traced (queryOn graph cost (some prepared) origin start .unbounded (some destination))
        swept.label links node := by
    intro node
    rw [reached]
    constructor
    · exact fun ⟨links, traced⟩ => ⟨links, traced.retarget _ _ _⟩
    · exact fun ⟨links, traced⟩ => ⟨links, traced.retarget _ _ _⟩
  have guidedChart : Chart
      (queryOn graph cost (some prepared) origin start .unbounded (some destination))
      swept.label := chart.retarget _ _ _
  have unpruned := (run_recorded consistent blank ran).2.1 destination
  rcases run_agrees guidedChart (HasEvenTies.of_labels ties retargeted) consistent priced blank
    ran with ⟨settledIff, agrees⟩
  have sameReached : answered.isReached destination = swept.isReached destination := by
    rw [answers.isReached_eq destinationInside unpruned, Bool.eq_iff_iff, retargeted]
    exact settledIff
  have reports := leads.map_path?
  refine ⟨answered.path? destination, answered, calculated, ?_⟩
  rw [reports.1, reports.2, answers.start_eq]
  by_cases isReached : swept.isReached destination = true
  · have charted := agrees destination consistent.goal_matters
      (settledIff.mpr ((retargeted destination).mp isReached))
    simp only [time?, cost?, sameReached, isReached, if_true, answers.label_eq, charted.cost_eq,
      charted.time_eq, true_and]
    rfl
  · simp [time?, cost?, sameReached, isReached]

end PathTree

end JourneyTimes
