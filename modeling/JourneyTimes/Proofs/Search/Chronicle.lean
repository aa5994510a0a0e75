import JourneyTimes.Proofs.Search.Levelled

/-!
# What the order of settling tells

A search without a goal records nodes in the order in which it settles them.
This is an order of cost, and it says where labels come from: the way to a node
is the best that the nodes recorded before it offer, the first of equally good
ones.  What later nodes offer is no better, so it does not matter whether it is
counted in.
-/

namespace JourneyTimes.Search

section Offers

variable {α : Type} [Scalar α]

/-- The labels that some settled nodes offer another one, in their order. -/
def Query.offersOf (query : Query α) (labels : Nat → Label α) (origins : List Nat)
    (node : Nat) : List (Label α) :=
  origins.flatMap fun origin => query.offersFrom (labels origin) origin node

/-- The best label that some settled nodes offer another one, the first of
equally good ones. -/
def Query.bestOf (query : Query α) (labels : Nat → Label α) (origins : List Nat)
    (node : Nat) : Label α :=
  (query.offersOf labels origins node).foldl better Label.unknown

theorem bestOf_append (query : Query α) (labels : Nat → Label α) (origins others : List Nat)
    (node : Nat) :
    query.bestOf labels (origins ++ others) node =
      (query.offersOf labels others node).foldl better (query.bestOf labels origins node) := by
  rw [Query.bestOf, Query.offersOf, List.flatMap_append, List.foldl_append]
  rfl

/-- What a node offers depends on the way to it only. -/
theorem offersFrom_congr (query : Query α) {here there : Label α}
    (same : here.arrival = there.arrival) (origin node : Nat) :
    query.offersFrom here origin node = query.offersFrom there origin node := by
  have offer : query.offer here = query.offer there := by
    funext link
    rw [Query.offer, Query.offer, extend, extend, Label.cost_congr same,
      Label.time_congr same, Label.distance_congr same]
  have uses : query.uses here = query.uses there := by
    funext link
    rw [Query.uses, Query.uses, Label.time_congr same]
  rw [Query.offersFrom, Query.offersFrom, Query.offers, Query.offers, offer, uses]

theorem offersOf_congr (query : Query α) {labels others : Nat → Label α} {origins : List Nat}
    (same : ∀ origin ∈ origins, (labels origin).arrival = (others origin).arrival)
    (node : Nat) : query.offersOf labels origins node = query.offersOf others origins node :=
  List.flatMap_congr fun origin member => offersFrom_congr query (same origin member) origin node

theorem bestOf_congr (query : Query α) {labels others : Nat → Label α} {origins : List Nat}
    (same : ∀ origin ∈ origins, (labels origin).arrival = (others origin).arrival)
    (node : Nat) : query.bestOf labels origins node = query.bestOf others origins node := by
  rw [Query.bestOf, Query.bestOf, offersOf_congr query same]

/-- Which way is best does not depend on the marks of the known label. -/
theorem foldl_better_arrival_congr (offers : List (Label α)) {known other : Label α}
    (same : known.arrival = other.arrival) :
    (offers.foldl better known).arrival = (offers.foldl better other).arrival := by
  induction offers generalizing known other with
  | nil => exact same
  | cons found offers ih =>
      apply ih
      rw [better, better, Label.cost_congr same]
      split_ifs
      · rfl
      · exact same

end Offers

variable {K : Type} [Field K] [LinearOrder K] [FloorRing K] [Trigonometry K]

/-- A known label stays if nothing better is offered. -/
theorem foldl_better_of_le {offers : List (Label (Exact K))} {known : Label (Exact K)}
    (cheap : ∀ found ∈ offers, known.cost ≤ found.cost) : offers.foldl better known = known := by
  induction offers with
  | nil => rfl
  | cons found offers ih =>
      have notBetter := Exact.not_lt_of_le (cheap found (List.mem_cons_self ..))
      rw [List.foldl_cons, better, if_neg notBetter]
      exact ih fun other member => cheap other (List.mem_cons_of_mem _ member)

/-- The dearer the known label, the dearer the best one. -/
theorem foldl_better_mono {offers : List (Label (Exact K))} {known other : Label (Exact K)}
    (le : known.cost ≤ other.cost) (knownNonneg : 0 ≤ known.cost)
    (nonneg : ∀ found ∈ offers, 0 ≤ found.cost) :
    (offers.foldl better known).cost ≤ (offers.foldl better other).cost := by
  rcases foldl_better_le knownNonneg nonneg with ⟨leKnown, leOffers⟩
  rcases foldl_better_eq_or_mem offers other with same | member
  · rw [same]
    exact Exact.le_trans leKnown le
  · exact leOffers _ member

/-- A label that is better than a known one is also taken instead of a dearer
one. -/
theorem foldl_better_eq_of_lt {offers : List (Label (Exact K))} {known other : Label (Exact K)}
    (le : known.cost ≤ other.cost) (knownNonneg : 0 ≤ known.cost)
    (nonneg : ∀ found ∈ offers, 0 ≤ found.cost)
    (less : (offers.foldl better known).cost < known.cost) :
    offers.foldl better other = offers.foldl better known := by
  induction offers generalizing other with
  | nil => exact absurd less (Exact.lt_irrefl _)
  | cons found offers ih =>
      rw [List.foldl_cons] at less ⊢
      rw [List.foldl_cons]
      by_cases cheaper : found.cost < known.cost
      · rw [better, if_pos (Exact.lt_of_lt_of_le cheaper le), better, if_pos cheaper]
      · rw [better, if_neg cheaper] at less
        rw [better, better, if_neg cheaper]
        refine ih ?_ (fun found member => nonneg found (List.mem_cons_of_mem _ member)) less
        split_ifs
        · exact Exact.le_of_not_lt (Exact.le_self_of_le (nonneg found (List.mem_cons_self ..)))
            (Exact.le_self_of_le knownNonneg) cheaper
        · exact le

variable [IsStrictOrderedRing K] {query : Query (Exact K)}

section Expand

variable {state : State (Exact K)} (levelled : Levelled query state) (plain : query.IsPlain)
  {node : Nat} {rest : Frontier (Exact K)} (popped : state.frontier.pop? = some (node, rest))

include levelled plain popped

/-- Whether a label has been dealt with or not, it becomes the best of itself and
what its node is offered. -/
theorem Levelled.expand_arrival (other : Nat) :
    ((Search.expand query node rest state).labels.get other).arrival =
      ((query.offersFrom (state.labels.get node) node other).foldl better
        (state.labels.get other)).arrival := by
  rcases levelled.popped_found plain.wellFormed plain.source_lt popped with ⟨waits, nodeInside⟩
  have closed := (get_close_arrival query levelled.valid nodeInside rest other).1
  rw [get_expand plain.wellFormed levelled.valid nodeInside]
  split_ifs with final
  · have dealt := (isFinal_get_close plain.noGoal levelled.valid nodeInside rest other).mp final
    have cheap : ∀ found ∈ query.offersFrom (state.labels.get node) node other,
        (state.labels.get other).cost ≤ found.cost := by
      intro found offered
      rcases (mem_offersFrom plain.wellFormed nodeInside).mp offered with
        ⟨link, member, -, -, usable, rfl⟩
      exact Exact.le_trans (levelled.dealt_le plain popped dealt)
        (levelled.le_offer plain.toIsRegular waits.1 member usable)
    rw [closed, foldl_better_of_le cheap]
  · exact foldl_better_arrival_congr _ closed

omit [IsStrictOrderedRing K] in
/-- The way to a node that has been dealt with does not change. -/
theorem Levelled.expand_frozen {other : Nat}
    (dealt : other = node ∨ query.isFinal (state.labels.get other) = true) :
    ((Search.expand query node rest state).labels.get other).arrival =
      (state.labels.get other).arrival := by
  have nodeInside := (levelled.popped_found plain.wellFormed plain.source_lt popped).2
  have final := (isFinal_get_close plain.noGoal levelled.valid nodeInside rest other).mpr dealt
  rw [get_expand plain.wellFormed levelled.valid nodeInside, if_pos final]
  exact (get_close_arrival query levelled.valid nodeInside rest other).1

omit [IsStrictOrderedRing K] in
/-- Settling a node leaves the marks of all others. -/
theorem Levelled.expand_marks (other : Nat) :
    ((Search.expand query node rest state).labels.get other).settled =
        (other == node || (state.labels.get other).settled) ∧
      ((Search.expand query node rest state).labels.get other).pruned =
        (state.labels.get other).pruned :=
  levelled.toSound.expand_marks plain.wellFormed plain.source_lt plain.noGoal popped other

omit [IsStrictOrderedRing K] in
theorem Levelled.isFinal_expand (other : Nat) :
    query.isFinal ((Search.expand query node rest state).labels.get other) = true ↔
      other = node ∨ query.isFinal (state.labels.get other) = true := by
  rcases levelled.expand_marks plain popped other with ⟨settled, pruned⟩
  rw [isFinal_eq plain.noGoal, isFinal_eq plain.noGoal, settled, pruned]
  simp only [Bool.or_eq_true, beq_iff_eq]
  exact or_left_comm

end Expand

/-- What holds of the record of a plain search between two steps. -/
structure Chronicled (query : Query (Exact K)) (state : State (Exact K)) : Prop
    extends Levelled query state where
  mem_iff : ∀ node, node ∈ state.settled.toList ↔ (state.labels.get node).settled = true
  unpruned : ∀ node, (state.labels.get node).settled = true →
    (state.labels.get node).pruned = false
  distinct : state.settled.toList.Nodup
  sorted : state.settled.toList.Pairwise fun first second =>
    (state.labels.get first).cost ≤ (state.labels.get second).cost
  origin : (state.labels.get query.source).arrival = Arrival.departure query.start
  offered : ∀ node, node ≠ query.source → (state.labels.get node).arrival =
    (query.bestOf state.labels.get state.settled.toList node).arrival
  settledBy : ∀ before node after, state.settled.toList = before ++ node :: after →
    node ≠ query.source →
    (state.labels.get node).arrival = (query.bestOf state.labels.get before node).arrival

namespace Chronicled

omit [IsStrictOrderedRing K] in
theorem initial (plain : query.IsPlain) {scratch : Scratch (Exact K)}
    (blank : Blank query.graph.size scratch) :
    Chronicled query (Search.initial query scratch) := by
  have get := get_initial blank plain.source_lt
  have unsettled (node : Nat) :
      ((Search.initial query scratch).labels.get node).settled = false := by
    rw [get]
    split_ifs <;> rfl
  constructor
  case toLevelled => exact .initial plain blank
  case mem_iff =>
    intro node
    rw [unsettled]
    simp [settled_initial blank]
  case unpruned =>
    intro node settled
    rw [unsettled] at settled
    cases settled
  case distinct =>
    rw [settled_initial blank]
    exact .nil
  case sorted =>
    rw [settled_initial blank]
    exact .nil
  case origin =>
    rw [get, if_pos rfl]
    rfl
  case offered =>
    intro node apart
    rw [get, if_neg apart, settled_initial blank]
    rfl
  case settledBy =>
    intro before node after split
    simp [settled_initial blank] at split

variable {state : State (Exact K)} (chronicled : Chronicled query state) (plain : query.IsPlain)
  {node : Nat} {rest : Frontier (Exact K)} (popped : state.frontier.pop? = some (node, rest))

include chronicled plain popped

omit [IsStrictOrderedRing K] in
protected theorem prune : Chronicled query (Search.prune node rest state) := by
  rcases chronicled.popped_found plain.wellFormed plain.source_lt popped with ⟨waits, nodeInside⟩
  have get := get_prune chronicled.valid nodeInside rest
  have same := get_prune_arrival chronicled.valid nodeInside rest
  have costSame (other : Nat) : ((Search.prune node rest state).labels.get other).cost =
      (state.labels.get other).cost := Label.cost_congr (same other)
  have sameBest (origins : List Nat) (other : Nat) :
      query.bestOf (Search.prune node rest state).labels.get origins other =
        query.bestOf state.labels.get origins other :=
    bestOf_congr query (fun origin _ => same origin) other
  have settledSame := get_prune_settled chronicled.valid nodeInside rest
  constructor
  case toLevelled => exact chronicled.toLevelled.prune plain popped
  case mem_iff =>
    intro other
    rw [settledSame]
    exact chronicled.mem_iff other
  case unpruned =>
    intro other settled
    rw [settledSame] at settled
    have apart : other ≠ node := by
      rintro rfl
      exact waits.not_settled settled
    rw [get, if_neg apart]
    exact chronicled.unpruned other settled
  case distinct => exact chronicled.distinct
  case sorted =>
    apply chronicled.sorted.imp
    intro first second le
    rwa [costSame, costSame]
  case origin =>
    rw [same]
    exact chronicled.origin
  case offered =>
    intro other apart
    rw [same, sameBest]
    exact chronicled.offered other apart
  case settledBy =>
    intro before other after split apart
    rw [same, sameBest]
    exact chronicled.settledBy before other after split apart

/-! ### What settling a node adds to the record -/

omit [IsStrictOrderedRing K] popped in
theorem dealt {other : Nat} (member : other ∈ state.settled.toList ++ [node]) :
    other = node ∨ query.isFinal (state.labels.get other) = true := by
  rcases List.mem_append.mp member with old | new
  · exact .inr (isFinal_of_settled plain.noGoal ((chronicled.mem_iff other).mp old))
  · exact .inl (List.mem_singleton.mp new)

omit [IsStrictOrderedRing K] in
/-- Settling a node changes no label of the record. -/
theorem frozen {other : Nat} (member : other ∈ state.settled.toList ++ [node]) :
    ((Search.expand query node rest state).labels.get other).arrival =
      (state.labels.get other).arrival :=
  chronicled.expand_frozen plain popped (chronicled.dealt plain member)

omit [IsStrictOrderedRing K] in
theorem frozen_bestOf {origins : List Nat}
    (known : ∀ origin ∈ origins, origin ∈ state.settled.toList ++ [node]) (other : Nat) :
    query.bestOf (Search.expand query node rest state).labels.get origins other =
      query.bestOf state.labels.get origins other :=
  bestOf_congr query (fun origin member => chronicled.frozen plain popped (known origin member))
    other

omit [IsStrictOrderedRing K] in
theorem distinct_expand : (state.settled.toList ++ [node]).Nodup := by
  have waits := (chronicled.popped_found plain.wellFormed plain.source_lt popped).1
  exact waits.nodup_append chronicled.distinct fun other => (chronicled.mem_iff other).mp

omit [IsStrictOrderedRing K] in
theorem sorted_expand :
    (state.settled.toList ++ [node]).Pairwise fun first second =>
      ((Search.expand query node rest state).labels.get first).cost ≤
        ((Search.expand query node rest state).labels.get second).cost := by
  have costSame {other : Nat} (member : other ∈ state.settled.toList ++ [node]) :
      ((Search.expand query node rest state).labels.get other).cost =
        (state.labels.get other).cost :=
    Label.cost_congr (chronicled.frozen plain popped member)
  rw [List.pairwise_append]
  refine ⟨?_, List.pairwise_singleton _ _, ?_⟩
  · refine List.Pairwise.imp_of_mem ?_ chronicled.sorted
    intro first second firstMember secondMember le
    rwa [costSame (List.mem_append_left _ firstMember),
      costSame (List.mem_append_left _ secondMember)]
  · intro first old second new
    rw [costSame (List.mem_append_left _ old), costSame (List.mem_append_right _ new),
      List.mem_singleton.mp new]
    exact chronicled.dealt_le plain popped (chronicled.dealt plain (List.mem_append_left _ old))

theorem origin_expand :
    ((Search.expand query node rest state).labels.get query.source).arrival =
      Arrival.departure query.start := by
  have waits := (chronicled.popped_found plain.wellFormed plain.source_lt popped).1
  have cheap : ∀ found ∈ query.offersFrom (state.labels.get node) node query.source,
      (state.labels.get query.source).cost ≤ found.cost := by
    intro found offered
    exact Exact.le_trans chronicled.source_cost
      (chronicled.offersFrom_nonneg plain.toIsRegular waits.1 _ found offered)
  rw [chronicled.expand_arrival plain popped, foldl_better_of_le cheap]
  exact chronicled.origin

omit [IsStrictOrderedRing K] in
theorem settledBy_expand {before after : List Nat} {other : Nat}
    (split : state.settled.toList ++ [node] = before ++ other :: after)
    (apart : other ≠ query.source) :
    ((Search.expand query node rest state).labels.get other).arrival =
      (query.bestOf (Search.expand query node rest state).labels.get before other).arrival := by
  have known : ∀ origin ∈ before ++ [other], origin ∈ state.settled.toList ++ [node] := by
    intro origin member
    rw [split]
    simp only [List.mem_append, List.mem_cons] at member ⊢
    tauto
  rw [chronicled.frozen plain popped (known other (by simp)), chronicled.frozen_bestOf plain popped
    fun origin member => known origin (List.mem_append_left _ member)]
  -- The other node is the one that has just been settled, or was recorded before.
  rcases last_or_earlier split with ⟨rfl, rfl⟩ | ⟨init, earlier⟩
  · exact chronicled.offered other apart
  · exact chronicled.settledBy before other init earlier apart

protected theorem expand : Chronicled query (Search.expand query node rest state) := by
  have waits := (chronicled.popped_found plain.wellFormed plain.source_lt popped).1
  have settledEq := settled_expand plain.noGoal node rest state
  have marks := chronicled.expand_marks plain popped
  constructor
  case toLevelled => exact chronicled.toLevelled.expand plain popped
  case mem_iff =>
    intro other
    rw [settledEq, (marks other).1, List.mem_append, chronicled.mem_iff]
    simp [or_comm]
  case unpruned =>
    intro other settled
    rw [(marks other).1, Bool.or_eq_true, beq_iff_eq] at settled
    rw [(marks other).2]
    rcases settled with rfl | settled
    · exact waits.2.2
    · exact chronicled.unpruned other settled
  case distinct =>
    rw [settledEq]
    exact chronicled.distinct_expand plain popped
  case sorted =>
    rw [settledEq]
    exact chronicled.sorted_expand plain popped
  case origin => exact chronicled.origin_expand plain popped
  case offered =>
    intro other apart
    rw [settledEq, chronicled.frozen_bestOf plain popped (fun _ member => member), bestOf_append,
      chronicled.expand_arrival plain popped, Query.offersOf, List.flatMap_singleton]
    exact foldl_better_arrival_congr _ (chronicled.offered other apart)
  case settledBy =>
    intro before other after split apart
    rw [settledEq] at split
    exact chronicled.settledBy_expand plain popped split apart

omit popped in
protected theorem step {next : State (Exact K)} (step : Step query state next) :
    Chronicled query next := by
  cases step with
  | prune popped _ => exact chronicled.prune plain popped
  | expand popped _ _ => exact chronicled.expand plain popped

end Chronicled

/-- What nodes recorded later offer a recorded node is no better than its label. -/
theorem Chronicled.bestOf_of_split {state : State (Exact K)} (chronicled : Chronicled query state)
    (plain : query.IsPlain) {before after later : List Nat} {node : Nat}
    (split : state.settled.toList = before ++ node :: after) (apart : node ≠ query.source)
    (recorded : ∀ other ∈ later, other ∈ after) :
    (query.bestOf state.labels.get (before ++ later) node).arrival =
      (state.labels.get node).arrival := by
  have settledBy := chronicled.settledBy before node after split apart
  have sorted := chronicled.sorted
  rw [split, List.pairwise_append, List.pairwise_cons] at sorted
  have cheap : ∀ found ∈ query.offersOf state.labels.get later node,
      (query.bestOf state.labels.get before node).cost ≤ found.cost := by
    intro found offered
    rcases List.mem_flatMap.mp offered with ⟨other, member, offered⟩
    have settled : (state.labels.get other).settled = true := by
      rw [← chronicled.mem_iff, split]
      exact List.mem_append_right _ (List.mem_cons_of_mem _ (recorded other member))
    have isFound := chronicled.found_of_settled settled
    have inside := lt_of_waits chronicled.toSound plain.wellFormed plain.source_lt isFound
    rcases (mem_offersFrom plain.wellFormed inside).mp offered with
      ⟨link, linkMember, -, -, usable, rfl⟩
    rw [← Label.cost_congr settledBy]
    exact Exact.le_trans (sorted.2.1.1 other (recorded other member))
      (chronicled.le_offer plain.toIsRegular isFound linkMember usable)
  rw [bestOf_append, foldl_better_of_le cheap]
  exact settledBy.symm

/-- The marks of labels say whether the bounds exclude their nodes. -/
def Marked (query : Query (Exact K)) (state : State (Exact K)) : Prop :=
  ∀ node, ((state.labels.get node).pruned = true → isBeyond query node state = true) ∧
    ((state.labels.get node).settled = true → isBeyond query node state = false)

omit [IsStrictOrderedRing K] in
theorem Marked.step {state next : State (Exact K)} (marked : Marked query state)
    (levelled : Levelled query state) (plain : query.IsPlain) (step : Step query state next) :
    Marked query next := by
  intro other
  cases step with
  | @prune node rest popped beyond =>
      rcases levelled.popped_found plain.wellFormed plain.source_lt popped with ⟨waits, nodeInside⟩
      rw [isBeyond_congr query (get_prune_arrival levelled.valid nodeInside rest other),
        get_prune levelled.valid nodeInside]
      split_ifs with equal
      · rw [equal, waits.2.1]
        exact ⟨fun _ => beyond, fun settled => by cases settled⟩
      · exact marked other
  | @expand node rest popped within _ =>
      rcases levelled.expand_marks plain popped other with ⟨settledEq, prunedEq⟩
      have frozen (final : other = node ∨ query.isFinal (state.labels.get other) = true) :=
        isBeyond_congr query (levelled.expand_frozen plain popped final)
      rw [settledEq, prunedEq]
      constructor
      · intro pruned
        have final : query.isFinal (state.labels.get other) = true := by
          rw [isFinal_eq plain.noGoal, pruned, Bool.true_or]
        rw [frozen (.inr final)]
        exact (marked other).1 pruned
      · intro settled
        rcases Bool.or_eq_true_iff.mp settled with equal | settled
        · have equal := beq_iff_eq.mp equal
          rw [frozen (.inl equal), equal]
          exact within
        · rw [frozen (.inr (isFinal_of_settled plain.noGoal settled))]
          exact (marked other).2 settled

section

variable (plain : query.IsPlain) {scratch : Scratch (Exact K)}
  (blank : Blank query.graph.size scratch) {state : State (Exact K)}
  (reaches : Reaches query (initial query scratch) state)

include plain blank reaches

/-- All states of a plain search keep the record. -/
theorem chronicled_of_reaches : Chronicled query state :=
  reaches.keeps (Chronicled query) (fun chronicled step => chronicled.step plain step)
    (.initial plain blank)

theorem marked_of_reaches : Marked query state := by
  have both : Levelled query state ∧ Marked query state := by
    refine reaches.keeps (fun state => Levelled query state ∧ Marked query state) ?_ ?_
    · rintro state next ⟨levelled, marked⟩ step
      exact ⟨levelled.step plain step, marked.step levelled plain step⟩
    · refine ⟨.initial plain blank, ?_⟩
      intro node
      rw [get_initial blank plain.source_lt]
      split_ifs
      · exact ⟨nofun, nofun⟩
      · exact ⟨nofun, nofun⟩
  exact both.2

end

end JourneyTimes.Search
