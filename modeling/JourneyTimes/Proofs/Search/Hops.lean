import JourneyTimes.Proofs.Search.Chronicle
import JourneyTimes.Proofs.Search.Solved

/-!
# Searches where all links are alike

Where all links have the same length and take the same time, journeys differ in nothing but
the number of their links.  A search without a goal finds for every node the least number of
links that lead there, unless its bounds exclude what so many links take.
-/

namespace JourneyTimes

variable {K : Type} [Field K] [LinearOrder K] [FloorRing K] [Trigonometry K]

/-- All links are of one length and take one time, which is what they cost. -/
structure CostModel.IsUniform (cost : CostModel (Exact K)) (graph : Graph (Exact K))
    (length duration : K) : Prop where
  length_pos : 0 < length
  duration_pos : 0 < duration
  length_eq : ∀ link ∈ graph.links, link.length = length
  travelTime_eq : ∀ link ∈ graph.links, ∀ time, cost.travelTime link time = duration
  disutility_eq : ∀ link ∈ graph.links, ∀ time, cost.disutility link time = duration
  priced : ∀ link ∈ graph.links, cost.prices link = true

/-- How many links it takes from a source to every node: none to the source itself, and to
any other node one more than to some node before it, and to no node before it less. -/
structure Graph.IsLevelling {α : Type} (graph : Graph α) (source : Nat) (hops : Nat → Nat) :
    Prop where
  source_eq : hops source = 0
  onwards : ∀ link ∈ graph.links, hops link.destination ≤ hops link.origin + 1
  backwards : ∀ node < graph.size, node ≠ source →
    ∃ link ∈ graph.links, link.destination = node ∧ hops link.origin + 1 = hops node

/-- Arriving after some links of one length that take one time. -/
def Arrival.after (start length duration : K) (hops : Nat) : Arrival (Exact K) where
  cost := (hops * duration : K)
  time := (start + hops * duration : K)
  distance := (hops * length : K)

/-- The bounds of a search exclude what some links of one length take that take one time. -/
def SearchBounds.prunesAfter (bounds : SearchBounds (Exact K)) (length duration : K)
    (hops : Nat) : Bool :=
  bounds.prunes (hops * duration : K) (hops * length : K)

/-- Up to a distance nothing is excluded that is shorter. -/
theorem SearchBounds.prunesAfter_maxDistance {limit : Exact K} (defined : limit ≠ .undefined)
    (length duration : K) (hops : Nat) :
    (SearchBounds.maxDistance limit).prunesAfter length duration hops = false ↔
      ((hops * length : K) : Exact K) < limit := by
  refine decide_eq_false_iff_not.trans ⟨fun notFarther => ?_, fun near farther => ?_⟩
  · by_contra notNear
    refine notFarther (Exact.le_of_not_lt (Exact.finite_le_finite.mpr le_rfl) ?_ notNear)
    cases limit with
    | undefined => exact absurd rfl defined
    | finite value => exact Exact.finite_le_finite.mpr le_rfl
    | infinity => rfl
    | negativeInfinity => rfl
  · exact Exact.not_lt_of_le farther near

section

variable {graph : Graph (Exact K)} {cost : CostModel (Exact K)} {length duration : K}

theorem CostModel.IsUniform.isNonnegative [IsStrictOrderedRing K]
    (uniform : cost.IsUniform graph length duration) : cost.IsNonnegative graph := by
  intro link member time _
  rw [uniform.disutility_eq link member]
  exact Exact.finite_nonneg.mpr uniform.duration_pos.le

theorem Arrival.along_after (uniform : cost.IsUniform graph length duration)
    {link : Graph.Link (Exact K)} (member : link ∈ graph.links) (start : K) (hops : Nat) :
    (Arrival.after start length duration hops).along cost link =
      Arrival.after start length duration (hops + 1) := by
  rw [Arrival.along, uniform.disutility_eq link member, uniform.travelTime_eq link member,
    uniform.length_eq link member]
  simp only [after, Exact.finite_add_finite, Nat.cast_succ, add_mul, one_mul, add_assoc]

/-- What a journey takes depends on how many links it has. -/
theorem Journey.arrival_eq (uniform : cost.IsUniform graph length duration) {source node : Nat}
    {start : K} {links : List (Graph.Link (Exact K))} {arrival : Arrival (Exact K)}
    (journey : Journey graph cost source (Arrival.departure start) links node arrival) :
    arrival = Arrival.after start length duration links.length := by
  induction journey with
  | stay => simp [Arrival.after, Arrival.departure, Exact.zero_eq]
  | go _ member _ _ ih =>
      rw [ih, Arrival.along_after uniform member, List.length_append, List.length_singleton]

/-- No journey has fewer links than it takes. -/
theorem Journey.hops_le {source node : Nat} {hops : Nat → Nat}
    (levelling : graph.IsLevelling source hops) {departure arrival : Arrival (Exact K)}
    {links : List (Graph.Link (Exact K))}
    (journey : Journey graph cost source departure links node arrival) :
    hops node ≤ links.length := by
  induction journey with
  | stay => exact levelling.source_eq.le
  | go _ member leaves _ ih =>
      rw [List.length_append, List.length_singleton]
      rw [← leaves] at ih
      exact (levelling.onwards _ member).trans (Nat.succ_le_succ ih)

/-- What is excluded after some links is excluded after more. -/
theorem SearchBounds.prunesAfter_mono [IsStrictOrderedRing K]
    (uniform : cost.IsUniform graph length duration) (bounds : SearchBounds (Exact K))
    {few many : Nat} (le : few ≤ many)
    (excluded : bounds.prunesAfter length duration few = true) :
    bounds.prunesAfter length duration many = true := by
  have grows {amount : K} (positive : 0 < amount) :
      ((few * amount : K) : Exact K) ≤ (many * amount : K) :=
    Exact.finite_le_finite.mpr (by gcongr)
  cases bounds with
  | unbounded => exact excluded
  | targets nodes => exact excluded
  | maxDistance limit =>
      exact decide_eq_true (Exact.le_trans (of_decide_eq_true excluded) (grows uniform.length_pos))
  | maxTravelTime limit =>
      exact decide_eq_true
        (Exact.le_trans (of_decide_eq_true excluded) (grows uniform.duration_pos))

end

namespace Search

variable {query : Query (Exact K)} {length duration start : K} {hops : Nat → Nat}
  {state : State (Exact K)}

/-- A label is that of a number of links. -/
theorem Sound.exists_after (sound : Sound query state)
    (uniform : query.cost.IsUniform query.graph length duration) (starts : query.start = start)
    (levelling : query.graph.IsLevelling query.source hops) {node : Nat}
    (found : IsFound query state node) :
    ∃ links, hops node ≤ links ∧
      (state.labels.get node).arrival = Arrival.after start length duration links := by
  rcases sound.realised node found with ⟨links, journey⟩
  rw [starts] at journey
  exact ⟨links.length, journey.hops_le levelling, journey.arrival_eq uniform⟩

theorem isBeyond_after (starts : query.start = start) {node links : Nat}
    (after : (state.labels.get node).arrival = Arrival.after start length duration links) :
    isBeyond query node state = query.bounds.prunesAfter length duration links := by
  have time : (state.labels.get node).time = (start + links * duration : K) :=
    congrArg Arrival.time after
  have distance : (state.labels.get node).distance = (links * length : K) :=
    congrArg Arrival.distance after
  rw [isBeyond, time, distance, starts, Exact.finite_sub_finite, add_sub_cancel_left,
    SearchBounds.prunesAfter]

/-- A label that costs no more than as many links as it takes is that of so many. -/
theorem Relaxed.after_of_cost_le [IsStrictOrderedRing K] (relaxed : Relaxed query state)
    (uniform : query.cost.IsUniform query.graph length duration) (starts : query.start = start)
    (levelling : query.graph.IsLevelling query.source hops) {node links : Nat}
    (needed : links ≤ hops node)
    (cheap : (state.labels.get node).cost ≤ (links * duration : K)) :
    IsFound query state node ∧
      (state.labels.get node).arrival = Arrival.after start length duration links := by
  have found := relaxed.found_of_cost_le cheap
  rcases relaxed.exists_after uniform starts levelling found with ⟨taken, atLeast, after⟩
  have cost : (state.labels.get node).cost = (taken * duration : K) := congrArg Arrival.cost after
  rw [cost, Exact.finite_le_finite] at cheap
  have atMost : taken ≤ links :=
    Nat.cast_le.mp (le_of_mul_le_mul_right cheap uniform.duration_pos)
  obtain rfl : taken = links := le_antisymm atMost (needed.trans atLeast)
  exact ⟨found, after⟩

variable [IsStrictOrderedRing K] (chronicled : Chronicled query state)
  (uniform : query.cost.IsUniform query.graph length duration)

include chronicled

include uniform in
omit [IsStrictOrderedRing K] in
/-- A node after a settled one costs no more than one link more. -/
theorem Chronicled.cost_le_after {link : Graph.Link (Exact K)}
    (member : link ∈ query.graph.links) {links : Nat}
    (settled : (state.labels.get link.origin).settled = true)
    (after : (state.labels.get link.origin).arrival =
      Arrival.after start length duration links) :
    (state.labels.get link.destination).cost ≤ ((links + 1 : Nat) * duration : K) := by
  have usable : query.uses (state.labels.get link.origin) link = true := by
    rw [Query.uses, uniform.priced link member, uniform.travelTime_eq link member,
      Exact.isFinite_finite]
    rfl
  have cost : (state.labels.get link.origin).cost = (links * duration : K) :=
    congrArg Arrival.cost after
  have offered : (query.offer (state.labels.get link.origin) link).cost =
      ((links + 1 : Nat) * duration : K) := by
    rw [Query.offer, extend, cost, uniform.disutility_eq link member, Exact.finite_add_finite,
      Nat.cast_succ, add_mul, one_mul]
  rw [← offered]
  exact chronicled.relaxed link member settled usable

variable (marked : Marked query state) (exhausted : state.frontier.pop? = none)
  (starts : query.start = start)

include marked exhausted starts

omit [IsStrictOrderedRing K] in
/-- A node that was found after some links which are not excluded has been settled. -/
theorem Chronicled.settled_of_after {node links : Nat} (found : IsFound query state node)
    (after : (state.labels.get node).arrival = Arrival.after start length duration links)
    (kept : query.bounds.prunesAfter length duration links = false) :
    (state.labels.get node).settled = true := by
  by_contra unsettled
  have pruned : (state.labels.get node).pruned = true := by
    by_contra unpruned
    exact chronicled.not_waiting exhausted node
      ⟨found, Bool.eq_false_iff.mpr unsettled, Bool.eq_false_iff.mpr unpruned⟩
  have beyond := (marked node).1 pruned
  rw [isBeyond_after starts after, kept] at beyond
  cases beyond

variable (wellFormed : query.graph.WellFormed)
  (levelling : query.graph.IsLevelling query.source hops)

include wellFormed uniform levelling

/-- Nodes are settled after as many links as it takes, if so many are not excluded. -/
theorem Chronicled.settled_of_kept {node : Nat} (inside : node < query.graph.size)
    (kept : query.bounds.prunesAfter length duration (hops node) = false) :
    (state.labels.get node).settled = true ∧
      (state.labels.get node).arrival = Arrival.after start length duration (hops node) := by
  -- The induction is on the number of links: the node before the last one is settled.
  generalize levelEq : hops node = level at kept ⊢
  induction level generalizing node with
  | zero =>
      have isSource : node = query.source := by
        by_contra other
        rcases levelling.backwards node inside other with ⟨link, -, -, next⟩
        omega
      rw [isSource]
      have after : (state.labels.get query.source).arrival =
          Arrival.after start length duration 0 := by
        rw [chronicled.origin, starts]
        simp [Arrival.after, Arrival.departure, Exact.zero_eq]
      exact ⟨chronicled.settled_of_after marked exhausted starts (.inl rfl) after kept, after⟩
  | succ level ih =>
      have notSource : node ≠ query.source := by
        rintro rfl
        rw [levelling.source_eq] at levelEq
        cases levelEq
      rcases levelling.backwards node inside notSource with ⟨link, member, rfl, next⟩
      have before : query.bounds.prunesAfter length duration level = false := by
        rw [← Bool.not_eq_true]
        intro excluded
        rw [SearchBounds.prunesAfter_mono uniform _ (Nat.le_succ level) excluded] at kept
        cases kept
      rcases ih (wellFormed.origin_lt link member) (by omega) before with ⟨settled, originAfter⟩
      have cheap := chronicled.cost_le_after uniform member settled originAfter
      rcases chronicled.after_of_cost_le uniform starts levelling levelEq.ge cheap with
        ⟨found, after⟩
      exact ⟨chronicled.settled_of_after marked exhausted starts found after kept, after⟩

/-- Nothing else is settled: what the bounds exclude is excluded after more links, too. -/
theorem Chronicled.settled_iff_kept (sourceInside : query.source < query.graph.size)
    (node : Nat) :
    (state.labels.get node).settled = true ↔
      node < query.graph.size ∧ query.bounds.prunesAfter length duration (hops node) = false := by
  constructor
  · intro settled
    have found := chronicled.found_of_settled settled
    refine ⟨lt_of_waits chronicled.toSound wellFormed sourceInside found, ?_⟩
    rcases chronicled.exists_after uniform starts levelling found with ⟨links, atLeast, after⟩
    have within := (marked node).2 settled
    rw [isBeyond_after starts after] at within
    rw [← Bool.not_eq_true]
    intro excluded
    rw [SearchBounds.prunesAfter_mono uniform _ atLeast excluded] at within
    cases within
  · rintro ⟨inside, kept⟩
    exact (chronicled.settled_of_kept uniform marked exhausted starts wellFormed levelling inside
      kept).1

end Search

namespace PathTree

variable [IsStrictOrderedRing K] {graph : Graph (Exact K)} {cost : CostModel (Exact K)}
  {landmarks : Option (Landmarks (Exact K))} {source : Nat} {start length duration : K}
  {bounds : SearchBounds (Exact K)} {scratch : Search.Scratch (Exact K)}
  {final : Search.State (Exact K)} {answered : PathTree (Exact K)} {hops : Nat → Nat}

/-- A path tree lists the nodes that are not excluded after as many links as it takes, each
once, and reports how long so many links take. -/
theorem Answers.reports_kept (wellFormed : graph.WellFormed)
    (uniform : cost.IsUniform graph length duration) (levelling : graph.IsLevelling source hops)
    (inside : source < graph.size) (noTargets : bounds.awaited = none)
    (blank : Search.Blank graph.size scratch)
    (ran : Search.run (queryOn graph cost landmarks source (start : Exact K) bounds none) scratch =
      .ok final)
    (answers : Answers (queryOn graph cost landmarks source (start : Exact K) bounds none)
      final answered) :
    answered.reached.toList.Nodup ∧
      (∀ node, node ∈ answered.reached.toList ↔
        node < graph.size ∧ bounds.prunesAfter length duration (hops node) = false) ∧
      ∀ node ∈ answered.reached.toList,
        answered.time? node = some ((start + hops node * duration : K) : Exact K) := by
  have plain : (queryOn graph cost landmarks source start bounds none).IsPlain :=
    isPlain_queryOn wellFormed uniform.isNonnegative inside start bounds
  rcases Search.run_reaches plain.noGoal noTargets ran with ⟨reaches, exhausted⟩
  have chronicled := Search.chronicled_of_reaches plain blank reaches
  have marked := Search.marked_of_reaches plain blank reaches
  have settledIff :=
    chronicled.settled_iff_kept uniform marked exhausted rfl wellFormed levelling inside
  rw [answers.reached_eq]
  refine ⟨chronicled.distinct, fun node => (chronicled.mem_iff node).trans (settledIff node), ?_⟩
  intro node member
  have settled := (chronicled.mem_iff node).mp member
  rcases (settledIff node).mp settled with ⟨nodeInside, kept⟩
  have after := (chronicled.settled_of_kept uniform marked exhausted rfl wellFormed levelling
    nodeInside kept).2
  have isReached : answered.isReached node = true := by
    rw [answers.isReached_eq nodeInside (chronicled.unpruned node settled)]
    exact settled
  rw [time?, if_pos isReached, answers.label_eq]
  exact congrArg (fun arrival => some arrival.time) after

end PathTree

end JourneyTimes
