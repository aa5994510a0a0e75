import JourneyTimes.Proofs.Search.Chronicle
import JourneyTimes.Proofs.Search.Solved

/-!
# Searches up to a distance

A search up to a distance settles what a search without bounds settles within
that distance, in the same order and with the same labels, if costs do not
depend on the time and lengths are not negative.  It follows the search without
bounds like a shadow, never ahead of it: whatever it deals with has been settled
there before, at no higher cost.

It may settle other nodes too.  The cheapest way to a node may lead too far, and
then the way that the shadow finds to it is a dearer but shorter one.
-/

namespace JourneyTimes

variable {K : Type} [Field K] [LinearOrder K] [FloorRing K] [Trigonometry K]

/-- Links do not have negative lengths. -/
def Graph.HasNonnegativeLengths (graph : Graph (Exact K)) : Prop :=
  ∀ link ∈ graph.links, 0 ≤ link.length

variable [IsStrictOrderedRing K]

theorem Journey.distance_nonneg {graph : Graph (Exact K)} (lengths : graph.HasNonnegativeLengths)
    {cost : CostModel (Exact K)} {origin node : Nat} {departure arrival : Arrival (Exact K)}
    {links : List (Graph.Link (Exact K))} (begins : 0 ≤ departure.distance)
    (journey : Journey graph cost origin departure links node arrival) :
    0 ≤ arrival.distance := by
  induction journey with
  | stay => exact begins
  | go _ member _ _ ih => exact Exact.add_nonneg ih (lengths _ member)

namespace Search

/-- The query with other bounds. -/
def Query.withBounds {α : Type} (query : Query α) (bounds : SearchBounds α) : Query α :=
  { query with bounds }

variable {query : Query (Exact K)}

theorem Sound.distance_nonneg {state : State (Exact K)} (sound : Sound query state)
    (lengths : query.graph.HasNonnegativeLengths) (node : Nat) :
    0 ≤ (state.labels.get node).distance := by
  by_cases found : IsFound query state node
  · rcases sound.realised node found with ⟨links, journey⟩
    exact journey.distance_nonneg lengths (Exact.finite_nonneg.mpr le_rfl)
  · rw [sound.unknown node found]
    exact Exact.nonneg_iff.mpr (.inl rfl)

/-- What a node offers is no nearer than the node. -/
theorem distance_le_of_offered (wellFormed : query.graph.WellFormed)
    (lengths : query.graph.HasNonnegativeLengths) {here found : Label (Exact K)}
    {origin node : Nat} (inside : origin < query.graph.size) (nonneg : 0 ≤ here.distance)
    (offered : found ∈ query.offersFrom here origin node) : here.distance ≤ found.distance := by
  rcases (mem_offersFrom wellFormed inside).mp offered with ⟨link, member, -, -, -, rfl⟩
  exact Exact.le_add_right_of_nonneg nonneg (lengths link member)

omit [IsStrictOrderedRing K] in
theorem Query.IsPlain.withBounds (plain : query.IsPlain) (bounds : SearchBounds (Exact K)) :
    (query.withBounds bounds).IsPlain where
  wellFormed := plain.wellFormed
  source_lt := plain.source_lt
  start_finite := plain.start_finite
  nonneg := plain.nonneg
  potential_finite := plain.potential_finite
  noGoal := plain.noGoal
  noPotential := plain.noPotential

omit [IsStrictOrderedRing K] in
/-- The bounds of a query play no part in what holds between two steps. -/
theorem Chronicled.of_withBounds {bounds : SearchBounds (Exact K)} {state : State (Exact K)}
    (chronicled : Chronicled (query.withBounds bounds) state) : Chronicled query state where
  valid := chronicled.valid
  once := chronicled.once
  waits_iff := chronicled.waits_iff
  unknown := chronicled.unknown
  realised := chronicled.realised
  cost_finite := chronicled.cost_finite
  source_cost := chronicled.source_cost
  keyed := chronicled.keyed
  relaxed := chronicled.relaxed
  level := chronicled.level
  mem_iff := chronicled.mem_iff
  unpruned := chronicled.unpruned
  distinct := chronicled.distinct
  sorted := chronicled.sorted
  origin := chronicled.origin
  offered := chronicled.offered
  settledBy := chronicled.settledBy

/-- The nodes whose labels are within a limit. -/
def nodesWithin (labels : Nat → Label (Exact K)) (limit : Exact K) (nodes : List Nat) :
    List Nat :=
  nodes.filter fun node => (labels node).distance < limit

omit [IsStrictOrderedRing K] in
theorem mem_nodesWithin {labels : Nat → Label (Exact K)} {limit : Exact K} {nodes : List Nat}
    {node : Nat} :
    node ∈ nodesWithin labels limit nodes ↔ node ∈ nodes ∧ (labels node).distance < limit := by
  rw [nodesWithin, List.mem_filter, decide_eq_true_iff]

omit [IsStrictOrderedRing K] in
theorem nodesWithin_append (labels : Nat → Label (Exact K)) (limit : Exact K)
    (nodes others : List Nat) :
    nodesWithin labels limit (nodes ++ others) =
      nodesWithin labels limit nodes ++ nodesWithin labels limit others :=
  List.filter_append ..

omit [IsStrictOrderedRing K] in
theorem nodesWithin_eq_self {labels : Nat → Label (Exact K)} {limit : Exact K}
    {nodes : List Nat} (near : ∀ node ∈ nodes, (labels node).distance < limit) :
    nodesWithin labels limit nodes = nodes :=
  List.filter_eq_self.mpr fun node member => decide_eq_true (near node member)

omit [IsStrictOrderedRing K] in
theorem nodesWithin_cons_of_not {labels : Nat → Label (Exact K)} {limit : Exact K} {node : Nat}
    (beyond : ¬ (labels node).distance < limit) (nodes : List Nat) :
    nodesWithin labels limit (node :: nodes) = nodesWithin labels limit nodes :=
  List.filter_cons_of_neg (by simpa using beyond)

/-- How a search up to a distance keeps up with one without bounds. -/
structure Shadows (query : Query (Exact K)) (limit : Exact K) (whole part : State (Exact K)) :
    Prop where
  cheaper : ∀ node, (whole.labels.get node).cost ≤ (part.labels.get node).cost
  same : ∀ node, (whole.labels.get node).distance < limit →
    (part.labels.get node).arrival = (whole.labels.get node).arrival
  ahead : ∀ node, query.isFinal (part.labels.get node) = true →
    (whole.labels.get node).settled = true
  order : nodesWithin whole.labels.get limit part.settled.toList =
    nodesWithin whole.labels.get limit whole.settled.toList

namespace Shadows

variable {limit : Exact K} {whole part : State (Exact K)}
  (shadows : Shadows query limit whole part) (plain : query.IsPlain)
  (lengths : query.graph.HasNonnegativeLengths) (wholeOk : Chronicled query whole)
  (partOk : Chronicled query part)

include shadows wholeOk partOk in
omit [IsStrictOrderedRing K] in
/-- The shadow has settled what is within the limit, with the same labels. -/
theorem settled_within {node : Nat} (settled : (whole.labels.get node).settled = true)
    (within : (whole.labels.get node).distance < limit) :
    (part.labels.get node).settled = true ∧ (part.labels.get node).pruned = false ∧
      (part.labels.get node).arrival = (whole.labels.get node).arrival := by
  have member := mem_nodesWithin.mpr ⟨(wholeOk.mem_iff node).mpr settled, within⟩
  rw [← shadows.order] at member
  have partSettled := (partOk.mem_iff node).mp (mem_nodesWithin.mp member).1
  exact ⟨partSettled, partOk.unpruned node partSettled, shadows.same node within⟩

include shadows plain partOk in
omit [IsStrictOrderedRing K] in
theorem settled_of_mem {node : Nat} (member : node ∈ part.settled.toList) :
    (whole.labels.get node).settled = true := by
  apply shadows.ahead
  exact isFinal_of_settled plain.noGoal ((partOk.mem_iff node).mp member)

section Whole

variable {node : Nat} {rest : Frontier (Exact K)}
  (popped : whole.frontier.pop? = some (node, rest))

include plain wholeOk popped in
omit [IsStrictOrderedRing K] in
theorem distance_frozen {other : Nat}
    (dealt : other = node ∨ (whole.labels.get other).settled = true) :
    ((expand query node rest whole).labels.get other).distance =
      (whole.labels.get other).distance := by
  have final : other = node ∨ query.isFinal (whole.labels.get other) = true :=
    dealt.imp_right (isFinal_of_settled plain.noGoal)
  exact Label.distance_congr (wholeOk.expand_frozen plain popped final)

include plain wholeOk popped in
omit [IsStrictOrderedRing K] in
theorem nodesWithin_frozen {origins : List Nat}
    (settled : ∀ origin ∈ origins, (whole.labels.get origin).settled = true) :
    nodesWithin (expand query node rest whole).labels.get limit origins =
      nodesWithin whole.labels.get limit origins := by
  apply List.filter_congr
  intro origin member
  rw [distance_frozen plain wholeOk popped (.inr (settled origin member))]

include shadows plain lengths wholeOk partOk popped

/-- The search without bounds may go ahead beyond the limit. -/
theorem expand_whole (beyond : ¬ (whole.labels.get node).distance < limit) :
    Shadows query limit (expand query node rest whole) part := by
  rcases wholeOk.popped_found plain.wellFormed plain.source_lt popped with ⟨waits, nodeInside⟩
  constructor
  · intro other
    exact Exact.le_trans (wholeOk.get_expand_cost_le plain.toIsRegular popped other)
      (shadows.cheaper other)
  · intro other within
    rcases wholeOk.expand_label_cases plain.toIsRegular popped other with kept | ⟨offered, -⟩
    · have closed := (get_close_arrival query wholeOk.valid nodeInside rest other).1
      rw [kept] at within ⊢
      rw [closed]
      apply shadows.same
      have distance : ((close query node rest whole).labels.get other).distance =
          (whole.labels.get other).distance := Label.distance_congr closed
      rwa [distance] at within
    · have farther := distance_le_of_offered plain.wellFormed lengths nodeInside
        (wholeOk.distance_nonneg lengths node) offered
      exact absurd (Exact.lt_of_le_of_lt farther within) beyond
  · intro other final
    rw [(wholeOk.expand_marks plain popped other).1, shadows.ahead other final, Bool.or_true]
  · rw [settled_expand plain.noGoal, nodesWithin_append,
      nodesWithin_frozen plain wholeOk popped fun _ => shadows.settled_of_mem plain partOk,
      nodesWithin_frozen plain wholeOk popped fun origin => (wholeOk.mem_iff origin).mp,
      nodesWithin_cons_of_not (by rwa [distance_frozen plain wholeOk popped (.inl rfl)])]
    exact shadows.order.trans (List.append_nil _).symm

end Whole

include shadows plain wholeOk partOk in
/-- What the shadow offers by a link is no better than what is known without
bounds. -/
theorem cost_le_offer (steady : query.cost.IsSteady query.graph) {link : Graph.Link (Exact K)}
    (member : link ∈ query.graph.links)
    (settled : (whole.labels.get link.origin).settled = true)
    (found : IsFound query part link.origin)
    (usable : query.uses (part.labels.get link.origin) link = true) :
    (whole.labels.get link.destination).cost ≤
      (query.offer (part.labels.get link.origin) link).cost := by
  rcases
      steady link member (whole.labels.get link.origin).time (part.labels.get link.origin).time
        with
    ⟨sameTime, sameCost⟩
  have wholeUsable : query.uses (whole.labels.get link.origin) link = true := by
    rw [Query.uses, sameTime]
    exact usable
  apply Exact.le_trans (wholeOk.relaxed link member settled wholeUsable)
  rcases wholeOk.cost_finite _ (wholeOk.found_of_settled settled) with ⟨cost, -, costEq⟩
  rcases partOk.cost_finite _ found with ⟨partCost, -, partCostEq⟩
  rcases partOk.time_finite plain.toIsRegular found with ⟨time, timeEq⟩
  have cheaper := shadows.cheaper link.origin
  rw [costEq, partCostEq, Exact.finite_le_finite] at cheaper
  rw [Query.uses, timeEq, Bool.and_eq_true] at usable
  have nonneg := plain.nonneg link member time usable.2
  rw [Query.offer, Query.offer, extend, extend, costEq, partCostEq, sameCost, timeEq]
  exact Exact.add_le_add cheaper nonneg (Exact.le_self_of_le nonneg)

section Part

variable {node : Nat} {rest : Frontier (Exact K)}
  (popped : part.frontier.pop? = some (node, rest))
  (settled : (whole.labels.get node).settled = true)

include shadows plain partOk popped settled

omit [IsStrictOrderedRing K] in
/-- The shadow may prune what has been settled. -/
theorem prune_part : Shadows query limit whole (prune node rest part) := by
  have nodeInside := (partOk.popped_found plain.wellFormed plain.source_lt popped).2
  have same := get_prune_arrival partOk.valid nodeInside rest
  constructor
  · intro other
    have cost : ((prune node rest part).labels.get other).cost = (part.labels.get other).cost :=
      Label.cost_congr (same other)
    rw [cost]
    exact shadows.cheaper other
  · intro other within
    rw [same]
    exact shadows.same other within
  · intro other final
    by_cases equal : other = node
    · rw [equal]
      exact settled
    · rw [get_prune partOk.valid nodeInside, if_neg equal] at final
      exact shadows.ahead other final
  · exact shadows.order

include wholeOk

/-- The shadow may settle what has been settled beyond the limit. -/
theorem expand_part (steady : query.cost.IsSteady query.graph)
    (beyond : ¬ (whole.labels.get node).distance < limit) :
    Shadows query limit whole (expand query node rest part) := by
  rcases partOk.popped_found plain.wellFormed plain.source_lt popped with ⟨waits, nodeInside⟩
  have closed := get_close_arrival query partOk.valid nodeInside rest
  have cases := partOk.expand_label_cases plain.toIsRegular popped
  have cheaper (other : Nat) : (whole.labels.get other).cost ≤
      ((expand query node rest part).labels.get other).cost := by
    rcases cases other with kept | ⟨offered, -⟩
    · rw [kept, show ((close query node rest part).labels.get other).cost = _ from
        Label.cost_congr (closed other).1]
      exact shadows.cheaper other
    · rcases (mem_offersFrom plain.wellFormed nodeInside).mp offered with
        ⟨link, member, rfl, rfl, usable, offer⟩
      rw [← offer]
      exact shadows.cost_le_offer plain wholeOk partOk steady member settled waits.1 usable
  constructor
  · exact cheaper
  · intro other within
    rcases cases other with kept | ⟨-, less⟩
    · rw [kept, (closed other).1]
      exact shadows.same other within
    · have cost : (part.labels.get other).cost = (whole.labels.get other).cost :=
        Label.cost_congr (shadows.same other within)
      rw [cost] at less
      exact absurd less (Exact.not_lt_of_le (cheaper other))
  · intro other final
    rcases (partOk.isFinal_expand plain popped other).mp final with rfl | wasFinal
    · exact settled
    · exact shadows.ahead other wasFinal
  · rw [settled_expand plain.noGoal, nodesWithin_append, nodesWithin_cons_of_not beyond]
    exact (List.append_nil _).trans shadows.order

end Part

include shadows plain wholeOk partOk

/-- Both searches may settle a node within the limit. -/
theorem expand_both {node : Nat} {wholeRest partRest : Frontier (Exact K)}
    (wholePopped : whole.frontier.pop? = some (node, wholeRest))
    (partPopped : part.frontier.pop? = some (node, partRest))
    (within : (whole.labels.get node).distance < limit) :
    Shadows query limit (expand query node wholeRest whole)
      (expand query node partRest part) := by
  have waits := (wholeOk.popped_found plain.wellFormed plain.source_lt wholePopped).1
  have offersNonneg := wholeOk.offersFrom_nonneg plain.toIsRegular waits.1
  have wholeArrival := wholeOk.expand_arrival plain wholePopped
  have partArrival (other : Nat) :
      ((expand query node partRest part).labels.get other).arrival =
        ((query.offersFrom (whole.labels.get node) node other).foldl better
          (part.labels.get other)).arrival := by
    rw [partOk.expand_arrival plain partPopped,
      offersFrom_congr query (shadows.same node within)]
  constructor
  · intro other
    rw [Label.cost_congr (wholeArrival other), Label.cost_congr (partArrival other)]
    exact foldl_better_mono (shadows.cheaper other) (wholeOk.cost_nonneg other)
      (offersNonneg other)
  · intro other near
    rw [wholeArrival, partArrival]
    rcases foldl_better_eq_or_lt (query.offersFrom (whole.labels.get node) node other)
      (whole.labels.get other) with kept | less
    · rw [Label.distance_congr (wholeArrival other), kept] at near
      exact foldl_better_arrival_congr _ (shadows.same other near)
    · rw [foldl_better_eq_of_lt (shadows.cheaper other) (wholeOk.cost_nonneg other)
        (offersNonneg other) less]
  · intro other final
    rw [(wholeOk.expand_marks plain wholePopped other).1]
    rcases (partOk.isFinal_expand plain partPopped other).mp final with rfl | wasFinal
    · simp
    · rw [shadows.ahead other wasFinal, Bool.or_true]
  · rw [settled_expand plain.noGoal, settled_expand plain.noGoal, nodesWithin_append,
      nodesWithin_append,
      nodesWithin_frozen plain wholeOk wholePopped fun _ => shadows.settled_of_mem plain partOk,
      nodesWithin_frozen plain wholeOk wholePopped fun origin => (wholeOk.mem_iff origin).mp,
      shadows.order]

omit [IsStrictOrderedRing K] in
/-- A node that waits within the limit waits in the shadow too. -/
theorem waits {node : Nat} (wholeWaits : IsWaiting query whole node)
    (within : (whole.labels.get node).distance < limit) : IsWaiting query part node := by
  have sameCost : (part.labels.get node).cost = (whole.labels.get node).cost :=
    Label.cost_congr (shadows.same node within)
  rcases wholeOk.cost_finite node wholeWaits.1 with ⟨cost, -, costEq⟩
  have cheap : (part.labels.get node).cost ≤ cost := by
    rw [sameCost, costEq]
    exact Exact.finite_le_finite.mpr le_rfl
  have isOpen : query.isFinal (part.labels.get node) = false := by
    rw [← Bool.not_eq_true]
    intro final
    exact wholeWaits.not_settled (shadows.ahead node final)
  rw [isFinal_eq plain.noGoal, Bool.or_eq_false_iff] at isOpen
  exact ⟨partOk.found_of_cost_le cheap, isOpen.2, isOpen.1⟩

/-- If the next node without bounds is within the limit, then it is also the next
one that the shadow has to settle. -/
theorem pops_next (unpruned : ∀ node, (whole.labels.get node).pruned = false)
    (near : ∀ node rest, whole.frontier.pop? = some (node, rest) →
      (whole.labels.get node).distance < limit)
    {node : Nat} {rest : Frontier (Exact K)} (popped : part.frontier.pop? = some (node, rest))
    (unsettled : (whole.labels.get node).settled = false) :
    ∃ wholeRest, whole.frontier.pop? = some (node, wholeRest) := by
  have waits := (partOk.popped_found plain.wellFormed plain.source_lt popped).1
  rcases partOk.cost_finite node waits.1 with ⟨cost, -, costEq⟩
  have cheaper := shadows.cheaper node
  rw [costEq] at cheaper
  have found := wholeOk.found_of_cost_le cheaper
  have wholeWaits : IsWaiting query whole node := ⟨found, unsettled, unpruned node⟩
  cases next : whole.frontier.pop? with
  | none => exact absurd wholeWaits (wholeOk.not_waiting next node)
  | some pair =>
      rcases pair with ⟨first, wholeRest⟩
      have firstWaits := (wholeOk.popped_found plain.wellFormed plain.source_lt next).1
      have same := shadows.same first (near first wholeRest next)
      have sameCost : (part.labels.get first).cost = (whole.labels.get first).cost :=
        Label.cost_congr same
      rcases wholeOk.cost_finite first firstWaits.1 with ⟨firstCost, -, firstCostEq⟩
      rcases wholeOk.cost_finite node found with ⟨wholeCost, -, wholeCostEq⟩
      have partWaits :=
        shadows.waits plain wholeOk partOk firstWaits (near first wholeRest next)
      have partFirst := partOk.popped_first plain popped partWaits
      have wholeFirst := wholeOk.popped_first plain next wholeWaits
      rw [wholeCostEq, Exact.finite_le_finite] at cheaper
      simp only [Frontier.Entry.AtMost, costEq, sameCost, firstCostEq, wholeCostEq,
        Exact.finite_lt_finite, Exact.finite.injEq] at partFirst wholeFirst
      -- Each search has its node before the other's, so both have the same one.
      have notLess : ¬ cost < firstCost := by
        intro less
        rcases wholeFirst with more | ⟨equal, -⟩ <;> linarith
      have notMore : ¬ firstCost < wholeCost := by
        intro more
        rcases partFirst with less | ⟨equal, -⟩ <;> linarith
      have upto := (partFirst.resolve_left notLess).2
      have onwards := (wholeFirst.resolve_left notMore).2
      rw [Nat.le_antisymm onwards upto]
      exact ⟨wholeRest, rfl⟩

end Shadows

/-! ## Whole searches -/

section

variable (plain : query.IsPlain) (lengths : query.graph.HasNonnegativeLengths)
  {scratch : Scratch (Exact K)} (blank : Blank query.graph.size scratch)

include plain blank

theorem chronicled_of_reaches_withBounds {bounds : SearchBounds (Exact K)}
    {state : State (Exact K)}
    (reaches : Reaches (query.withBounds bounds) (initial (query.withBounds bounds) scratch)
      state) : Chronicled query state :=
  (chronicled_of_reaches (plain.withBounds bounds) blank reaches).of_withBounds

include lengths

/-- The search without bounds goes on until it comes to a node within the limit. -/
theorem Shadows.catch_up {limit : Exact K} {whole part last : State (Exact K)}
    (shadows : Shadows query limit whole part) (partOk : Chronicled query part)
    (reached : Reaches (query.withBounds .unbounded)
      (initial (query.withBounds .unbounded) scratch) whole)
    (onwards : Reaches (query.withBounds .unbounded) whole last)
    (exhausted : last.frontier.pop? = none) :
    ∃ later, Reaches (query.withBounds .unbounded)
        (initial (query.withBounds .unbounded) scratch) later ∧
      Reaches (query.withBounds .unbounded) later last ∧ Shadows query limit later part ∧
      ∀ node rest, later.frontier.pop? = some (node, rest) →
        (later.labels.get node).distance < limit := by
  induction onwards using Relation.ReflTransGen.head_induction_on with
  | refl =>
      refine ⟨last, reached, .refl, shadows, ?_⟩
      intro node rest popped
      rw [exhausted] at popped
      cases popped
  | @head whole next step rest ih =>
      have wholeOk := chronicled_of_reaches_withBounds plain blank reached
      cases step with
      | prune _ beyond => cases beyond
      | @expand node wholeRest popped within goesOn =>
          by_cases near : (whole.labels.get node).distance < limit
          · refine ⟨whole, reached, .head (.expand popped within goesOn) rest, shadows, ?_⟩
            intro other otherRest otherPopped
            rw [popped] at otherPopped
            cases otherPopped
            exact near
          · exact ih (shadows.expand_whole plain lengths wholeOk partOk popped near)
              (reached.tail (.expand popped within goesOn))

/-- The search without bounds passes through a state that a state of the shadow keeps
up with. -/
def Follows (query : Query (Exact K)) (limit : Exact K) (first last part : State (Exact K)) :
    Prop :=
  ∃ whole, Reaches (query.withBounds .unbounded) first whole ∧
    Reaches (query.withBounds .unbounded) whole last ∧ Shadows query limit whole part

/-- Every step of the shadow can be followed. -/
theorem Follows.step (steady : query.cost.IsSteady query.graph) {limit : Exact K}
    {part next last : State (Exact K)} (exhausted : last.frontier.pop? = none)
    (follows : Follows query limit (initial (query.withBounds .unbounded) scratch) last part)
    (partOk : Chronicled query part)
    (step : Step (query.withBounds (.maxDistance limit)) part next) :
    Follows query limit (initial (query.withBounds .unbounded) scratch) last next := by
  rcases follows with ⟨earlier, earlierReached, earlierOnwards, earlierShadows⟩
  rcases
      earlierShadows.catch_up plain lengths blank partOk earlierReached
        earlierOnwards exhausted with
    ⟨whole, reached, onwards, shadows, near⟩
  have wholeOk := chronicled_of_reaches_withBounds plain blank reached
  have wholePlain := plain.withBounds .unbounded
  have unpruned := unpruned_of_reaches wholePlain.wellFormed wholePlain.source_lt
    (fun _ _ => rfl) blank reached
  cases step with
  | @prune node rest popped isBeyond =>
      cases settled : (whole.labels.get node).settled with
      | true => exact ⟨whole, reached, onwards, shadows.prune_part plain partOk popped settled⟩
      | false =>
          rcases shadows.pops_next plain wholeOk partOk unpruned near popped settled with
            ⟨wholeRest, wholePopped⟩
          have within := near node wholeRest wholePopped
          have distance : (part.labels.get node).distance = (whole.labels.get node).distance :=
            Label.distance_congr (shadows.same node within)
          have beyond : limit ≤ (part.labels.get node).distance := of_decide_eq_true isBeyond
          rw [distance] at beyond
          exact absurd within (Exact.not_lt_of_le beyond)
  | @expand node rest popped _ _ =>
      have waits := (partOk.popped_found plain.wellFormed plain.source_lt popped).1
      cases settled : (whole.labels.get node).settled with
      | true =>
          have beyond : ¬ (whole.labels.get node).distance < limit := by
            intro within
            apply waits.not_settled
            exact (shadows.settled_within wholeOk partOk settled within).1
          exact ⟨whole, reached, onwards,
            shadows.expand_part plain wholeOk partOk popped settled steady beyond⟩
      | false =>
          rcases shadows.pops_next plain wholeOk partOk unpruned near popped settled with
            ⟨wholeRest, wholePopped⟩
          have within := near node wholeRest wholePopped
          rcases Relation.ReflTransGen.cases_head onwards with rfl | ⟨later, step, rest⟩
          · rw [exhausted] at wholePopped
            cases wholePopped
          · cases step with
            | prune _ beyond => cases beyond
            | @expand other otherRest otherPopped ownWithin goesOn =>
                have same := otherPopped.symm.trans wholePopped
                cases same
                exact ⟨_, reached.tail (.expand wholePopped ownWithin goesOn), rest,
                  shadows.expand_both plain wholeOk partOk wholePopped popped within⟩

end

omit [IsStrictOrderedRing K] in
theorem shadows_initial (plain : query.IsPlain) (limit : Exact K)
    {scratch others : Scratch (Exact K)} (blank : Blank query.graph.size scratch)
    (othersBlank : Blank query.graph.size others)
    (bounds otherBounds : SearchBounds (Exact K)) :
    Shadows query limit (initial (query.withBounds bounds) scratch)
      (initial (query.withBounds otherBounds) others) := by
  have get (node : Nat) : (initial (query.withBounds bounds) scratch).labels.get node =
      if node = query.source then Label.origin query.start else Label.unknown :=
    get_initial blank plain.source_lt node
  have same (node : Nat) : (initial (query.withBounds otherBounds) others).labels.get node =
      (initial (query.withBounds bounds) scratch).labels.get node := by
    rw [get]
    exact get_initial othersBlank plain.source_lt node
  constructor
  · intro node
    rw [same, get]
    split_ifs
    · exact Exact.finite_le_finite.mpr le_rfl
    · rfl
  · intro node _
    rw [same]
  · intro node final
    rw [same, get] at final
    split_ifs at final <;> cases final
  · rw [settled_initial othersBlank, settled_initial blank]

section

variable (plain : query.IsPlain) (lengths : query.graph.HasNonnegativeLengths)
  (steady : query.cost.IsSteady query.graph) (limit : Exact K)
  {scratch others : Scratch (Exact K)} (blank : Blank query.graph.size scratch)
  (othersBlank : Blank query.graph.size others) {final otherFinal : State (Exact K)}

include plain lengths steady blank othersBlank

/-- Every state of the shadow can be followed. -/
theorem follows_of_reaches {last part : State (Exact K)}
    (onwards : Reaches (query.withBounds .unbounded)
      (initial (query.withBounds .unbounded) scratch) last)
    (exhausted : last.frontier.pop? = none)
    (reaches : Reaches (query.withBounds (.maxDistance limit))
      (initial (query.withBounds (.maxDistance limit)) others) part) :
    Follows query limit (initial (query.withBounds .unbounded) scratch) last part := by
  have partPlain := plain.withBounds (.maxDistance limit)
  have both : Chronicled (query.withBounds (.maxDistance limit)) part ∧
      Follows query limit (initial (query.withBounds .unbounded) scratch) last part := by
    refine reaches.keeps
      (fun part => Chronicled (query.withBounds (.maxDistance limit)) part ∧
        Follows query limit (initial (query.withBounds .unbounded) scratch) last part) ?_ ?_
    · rintro part next ⟨chronicled, follows⟩ step
      exact ⟨chronicled.step partPlain step,
        follows.step plain lengths blank steady exhausted
          chronicled.of_withBounds step⟩
    · exact ⟨.initial partPlain othersBlank, _, .refl, onwards,
        shadows_initial plain limit blank othersBlank _ _⟩
  exact both.2

/-- A search up to a distance is the shadow of the one without bounds. -/
theorem run_shadows (ran : run (query.withBounds .unbounded) scratch = .ok final)
    (othersRan : run (query.withBounds (.maxDistance limit)) others = .ok otherFinal) :
    Shadows query limit final otherFinal := by
  rcases run_reaches (plain.withBounds .unbounded).noGoal rfl ran with
    ⟨wholeReaches, wholeExhausted⟩
  rcases run_reaches (plain.withBounds (.maxDistance limit)).noGoal rfl othersRan with
    ⟨partReaches, partExhausted⟩
  have partOk :=
    chronicled_of_reaches_withBounds plain othersBlank partReaches
  have follows := follows_of_reaches plain lengths steady limit blank othersBlank wholeReaches
    wholeExhausted partReaches
  rcases follows with ⟨earlier, earlierReached, earlierOnwards, earlierShadows⟩
  rcases
      earlierShadows.catch_up plain lengths blank partOk earlierReached
        earlierOnwards wholeExhausted with
    ⟨whole, reached, onwards, shadows, near⟩
  have wholeOk := chronicled_of_reaches_withBounds plain blank reached
  -- What still waits within the limit would wait in the shadow, where nothing does.
  have nothingLeft : ∀ node rest, whole.frontier.pop? ≠ some (node, rest) := by
    intro node rest popped
    have waits := (wholeOk.popped_found plain.wellFormed plain.source_lt popped).1
    exact partOk.not_waiting partExhausted node
      (shadows.waits plain wholeOk partOk waits (near node rest popped))
  rcases Relation.ReflTransGen.cases_head onwards with rfl | ⟨later, step, -⟩
  · exact shadows
  · cases step with
    | prune popped _ => exact absurd popped (nothingLeft _ _)
    | expand popped _ _ => exact absurd popped (nothingLeft _ _)

end

end Search

end JourneyTimes
