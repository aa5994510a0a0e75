import JourneyTimes.Proofs.Search.Answer
import JourneyTimes.Proofs.Search.Cut
import JourneyTimes.Proofs.Search.Levelled

/-!
# Searches that find the earliest arrival

A search that prunes nothing and is not stopped finds the earliest arrival at
every node.  One that stops at a target finds the earliest arrival there: when
the target comes out of the frontier every journey to it still has to cross the
frontier, where nothing is cheaper.
-/

namespace JourneyTimes

namespace Search

/-- The bounds of a query exclude no node. -/
def Query.KeepsAll {α : Type} [Scalar α] (query : Query α) : Prop :=
  ∀ elapsed distance, query.bounds.prunes elapsed distance = false

section Unpruned

variable {α : Type} [Scalar α] {query : Query α}
  (wellFormed : query.graph.WellFormed) (inside : query.source < query.graph.size)
  (keepsAll : query.KeepsAll)

include wellFormed inside

omit keepsAll in
theorem Sound.unpruned_expand {state : State α} (sound : Sound query state)
    (unpruned : ∀ node, (state.labels.get node).pruned = false) {node : Nat}
    {rest : Frontier α} (popped : state.frontier.pop? = some (node, rest)) (other : Nat) :
    ((expand query node rest state).labels.get other).pruned = false := by
  have nodeInside := (sound.popped_found wellFormed inside popped).2
  rcases get_expand_cases wellFormed sound.valid nodeInside rest other with same | ⟨-, offered⟩
  · rw [same, get_close_pruned query sound.valid nodeInside]
    exact unpruned other
  · rcases (mem_offersFrom wellFormed nodeInside).mp offered with ⟨link, -, -, -, -, offer⟩
    rw [← offer]
    rfl

include keepsAll

theorem unpruned_of_reaches {scratch : Scratch α}
    (blank : Blank query.graph.size scratch) {state : State α}
    (reaches : Reaches query (initial query scratch) state) :
    ∀ node, (state.labels.get node).pruned = false := by
  have both : Sound query state ∧ ∀ node, (state.labels.get node).pruned = false := by
    refine reaches.keeps
      (fun state => Sound query state ∧ ∀ node, (state.labels.get node).pruned = false)
      (fun holds step => ⟨holds.1.step wellFormed inside step, ?_⟩)
      ⟨sound_initial blank inside, ?_⟩
    · cases step with
      | prune _ beyond =>
          rw [isBeyond, keepsAll] at beyond
          cases beyond
      | expand popped _ _ => exact holds.1.unpruned_expand wellFormed inside holds.2 popped
    · intro node
      rw [get_initial blank inside]
      split_ifs <;> rfl
  exact both.2

end Unpruned

variable {K : Type} [Field K] [LinearOrder K] [FloorRing K] [Trigonometry K]

/-- A search has settled a node exactly if there is a journey to it, and then
with the label of one that costs least. -/
structure Solves (query : Query (Exact K)) (state : State (Exact K)) (node : Nat) : Prop where
  settled_iff : (state.labels.get node).settled = true ↔ ∃ links arrival,
    Journey query.graph query.cost query.source (Arrival.departure query.start)
      links node arrival
  unpruned : (state.labels.get node).pruned = false
  realised : (state.labels.get node).settled = true → ∃ links,
    Journey query.graph query.cost query.source (Arrival.departure query.start)
      links node (state.labels.get node).arrival
  least : ∀ links arrival,
    Journey query.graph query.cost query.source (Arrival.departure query.start)
      links node arrival → (state.labels.get node).cost ≤ arrival.cost

variable [IsStrictOrderedRing K] {query : Query (Exact K)}

section

variable (priced : ∀ link ∈ query.graph.links, query.cost.prices link = true)
  (costsTime : query.cost.CostsTime query.graph)
  (fifo : query.cost.IsFirstInFirstOut query.graph) {start : K} (starts : query.start = start)

include priced costsTime fifo starts

/-- A search that has nothing left to do has solved every node. -/
theorem Relaxed.solves_of_exhausted {state : State (Exact K)} (relaxed : Relaxed query state)
    (unpruned : ∀ node, (state.labels.get node).pruned = false)
    (exhausted : state.frontier.pop? = none) (node : Nat) : Solves query state node := by
  have settled {links : List (Graph.Link (Exact K))} {arrival : Arrival (Exact K)}
      (journey : Journey query.graph query.cost query.source
        (Arrival.departure query.start) links node arrival) :
      (state.labels.get node).settled = true ∧
        (state.labels.get node).cost ≤ arrival.cost := by
    rcases relaxed.cut unpruned priced costsTime fifo starts journey
      with settled | ⟨waiting, -, -, -, waits, -⟩
    · exact settled
    · exact absurd waits (relaxed.not_waiting exhausted waiting)
  have realised (isSettled : (state.labels.get node).settled = true) :=
    relaxed.realised node (relaxed.found_of_settled isSettled)
  refine ⟨⟨?_, fun ⟨_, _, journey⟩ => (settled journey).1⟩, unpruned node,
    realised, fun _ _ journey => (settled journey).2⟩
  intro isSettled
  rcases realised isSettled with ⟨links, journey⟩
  exact ⟨links, _, journey⟩

/-- A node that comes out of the frontier is solved if no waiting node costs
less, with a lower bound on the cost from there to the node. -/
theorem Relaxed.solves_of_popped (wellFormed : query.graph.WellFormed)
    (inside : query.source < query.graph.size) {state : State (Exact K)}
    (relaxed : Relaxed query state)
    (unpruned : ∀ node, (state.labels.get node).pruned = false)
    {node : Nat} {rest : Frontier (Exact K)}
    (popped : state.frontier.pop? = some (node, rest))
    (first : ∀ arrival, Crosses query state node arrival →
      (state.labels.get node).cost ≤ arrival.cost) :
    Solves query (close query node rest state) node := by
  rcases relaxed.popped_found wellFormed inside popped with ⟨waits, nodeInside⟩
  have label : (close query node rest state).labels.get node =
      { state.labels.get node with settled := true } := by
    rw [get_close query relaxed.valid nodeInside, if_pos rfl]
  rcases relaxed.realised node waits.1 with ⟨links, journey⟩
  rw [show (state.labels.get node).arrival =
    ((close query node rest state).labels.get node).arrival by rw [label]; rfl] at journey
  refine ⟨⟨fun _ => ⟨links, _, journey⟩, fun _ => by rw [label]⟩, by rw [label]; exact waits.2.2,
    fun _ => ⟨links, journey⟩, ?_⟩
  intro others arrival other
  rw [label]
  rcases relaxed.cut unpruned priced costsTime fifo starts other with ⟨settled, -⟩ | crosses
  · exact absurd settled waits.not_settled
  · exact first arrival crosses

omit priced fifo in
/-- Crossing the frontier of a plain search costs no less than the node that
comes out. -/
theorem Levelled.popped_le_of_crosses (plain : query.IsPlain) {state : State (Exact K)}
    (levelled : Levelled query state) {node : Nat} {rest : Frontier (Exact K)}
    (popped : state.frontier.pop? = some (node, rest)) {arrival : Arrival (Exact K)}
    (crosses : Crosses query state node arrival) :
    (state.labels.get node).cost ≤ arrival.cost := by
  rcases crosses with ⟨waiting, change, first, rest, waits, cheap, upto, onwards⟩
  rcases upto.costs_time costsTime 0 start rfl starts with ⟨spent, -, changeCost, changeTime⟩
  rcases onwards.costs_time costsTime _ _ changeCost changeTime with ⟨more, nonneg, arrivalCost, -⟩
  refine Exact.le_trans (levelled.popped_le plain popped waits) (Exact.le_trans cheap ?_)
  rw [changeCost, arrivalCost, Exact.finite_le_finite]
  linarith

end

/-! ## Whole searches -/

section

variable {scratch : Scratch (Exact K)} {final : State (Exact K)}
  (blank : Blank query.graph.size scratch) (ran : run query scratch = .ok final)
  (plain : query.IsPlain)

include blank ran plain

/-- A search without bounds prunes nothing, and goes on until nothing waits. -/
theorem run_exhausted (unbounded : query.bounds = .unbounded) :
    Levelled query final ∧
      (∀ node, (final.labels.get node).pruned = false) ∧
      final.frontier.pop? = none := by
  obtain ⟨reaches, exhausted⟩ :=
    run_reaches plain.noGoal (by rw [unbounded]; rfl) ran
  have keepsAll : query.KeepsAll := by
    intro elapsed distance
    rw [unbounded]
    rfl
  have unpruned := unpruned_of_reaches plain.wellFormed plain.source_lt keepsAll blank reaches
  exact ⟨levelled_of_reaches plain blank reaches, unpruned, exhausted⟩

variable (priced : ∀ link ∈ query.graph.links, query.cost.prices link = true)
  (costsTime : query.cost.CostsTime query.graph)
  (fifo : query.cost.IsFirstInFirstOut query.graph)

include priced costsTime fifo

/-- A search without bounds solves every node. -/
theorem run_solves (unbounded : query.bounds = .unbounded) (node : Nat) :
    Solves query final node := by
  rcases plain.start_finite with ⟨start, starts⟩
  rcases run_exhausted blank ran plain unbounded with ⟨levelled, unpruned, exhausted⟩
  exact levelled.solves_of_exhausted priced costsTime fifo starts unpruned exhausted node

/-- A search that stops at one target solves it. -/
theorem run_solves_target {target : Nat} (stops : query.bounds = .targets [target]) :
    Solves query final target := by
  rcases plain.start_finite with ⟨start, starts⟩
  rcases ends_of_run ran with ⟨last, reaches, ends⟩
  have levelled := levelled_of_reaches plain blank reaches
  have keepsAll : query.KeepsAll := fun elapsed distance => by rw [stops]; rfl
  have unpruned := unpruned_of_reaches plain.wellFormed plain.source_lt keepsAll blank reaches
  have awaitsTarget : last.awaited = some [target] := by
    refine reaches.keeps (fun state => state.awaited = some [target]) ?_
      (by rw [initial, stops]; rfl)
    intro state next holds step
    cases step with
    | prune _ _ => exact holds
    | @expand node _ _ _ goesOn =>
        rw [expand, (foldl_relax_settled query _ _ _).2, close, settle, holds]
        by_cases same : target = node
        · simp [isOver, close, settle, holds, same] at goesOn
        · simp [same]
  cases ends with
  | exhausted exhausted =>
      exact levelled.solves_of_exhausted priced costsTime fifo starts unpruned exhausted target
  | @arrived node rest popped _ ended =>
      obtain rfl : target = node := by
        by_contra apart
        simp [isOver, close, settle, awaitsTarget, plain.noGoal, apart] at ended
      exact levelled.solves_of_popped priced costsTime fifo starts plain.wellFormed
        plain.source_lt unpruned popped
        fun arrival => levelled.popped_le_of_crosses costsTime starts plain popped

end

end Search

/-! ## Path trees -/

namespace PathTree

open Search

variable {K : Type} [Field K] [LinearOrder K] [FloorRing K] [Trigonometry K]
  [IsStrictOrderedRing K] {graph : Graph (Exact K)} {cost : CostModel (Exact K)}
  {landmarks : Option (Landmarks (Exact K))}

omit [IsStrictOrderedRing K] in
/-- A path tree without a goal puts a plain query. -/
theorem isPlain_queryOn (wellFormed : graph.WellFormed) (nonneg : cost.IsNonnegative graph)
    {source : Nat} (inside : source < graph.size) (start : K)
    (bounds : SearchBounds (Exact K)) :
    (queryOn graph cost landmarks source start bounds none).IsPlain where
  wellFormed := wellFormed
  source_lt := inside
  start_finite := ⟨start, rfl⟩
  nonneg := nonneg
  potential_finite := fun _ => ⟨0, le_rfl, rfl⟩
  noGoal := rfl
  noPotential := fun _ => rfl

variable {query : Query (Exact K)} {final : State (Exact K)} {answered : PathTree (Exact K)}
  {node : Nat}

omit [IsStrictOrderedRing K] in
/-- A path tree reports a node that its search has solved exactly if there is a
journey to it. -/
theorem Answers.isReached_iff (answers : Answers query final answered)
    (wellFormed : query.graph.WellFormed) (inside : query.source < query.graph.size)
    (solves : Solves query final node) :
    answered.isReached node = true ↔ ∃ links arrival,
      Journey query.graph query.cost query.source (Arrival.departure query.start)
        links node arrival := by
  refine Iff.trans (answers.isReached_iff_of_settled fun settled => ⟨?_, solves.unpruned⟩)
    solves.settled_iff
  rcases solves.realised settled with ⟨links, journey⟩
  exact journey.node_lt wellFormed inside

end PathTree

end JourneyTimes
