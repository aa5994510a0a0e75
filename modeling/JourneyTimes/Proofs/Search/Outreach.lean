import JourneyTimes.Proofs.Graph.Walk
import JourneyTimes.Proofs.Search.ReportedPath
import JourneyTimes.Proofs.Search.Solved

/-!
# Searches go on from what they settle

Whatever links cost, a link that leaves a settled node leads to a node that is found, if the
link can be used and the cost at its end is below infinity.  So a search without bounds
misses a node only if costs add up to infinity on the way there, and if they do so at all,
they do on a way that visits no node twice.

Sums may be rounded here.  All that matters is that costs are compared in a strict order.
-/

namespace JourneyTimes

variable {α : Type} [Scalar α]

/-- Whoever arrives somewhere can go on along a link, at a cost below infinity. -/
structure CostModel.LeadsOn (cost : CostModel α) (here : Arrival α) (link : Graph.Link α) :
    Prop where
  priced : cost.prices link = true
  ends : Scalar.isFinite (cost.travelTime link here.time) = true
  below : (here.along cost link).cost < Scalar.infinity

/-- Journeys from a node that visit no node twice cost less than infinity. -/
def CostModel.StaysBelow (cost : CostModel α) (graph : Graph α) (source : Nat) (start : α) :
    Prop :=
  ∀ links node arrival, Journey graph cost source (.departure start) links node arrival →
    (source :: links.map (·.destination)).Nodup → arrival.cost < Scalar.infinity

namespace Search

variable {query : Query α}

/-- Links along which one can go on from settled nodes have led to nodes that are found. -/
def GoesOn (query : Query α) (state : State α) : Prop :=
  ∀ link ∈ query.graph.links, (state.labels.get link.origin).settled = true →
    query.cost.LeadsOn (state.labels.get link.origin).arrival link →
    IsFound query state link.destination

variable (wellFormed : query.graph.WellFormed) (inside : query.source < query.graph.size)

section Steps

variable {state : State α} {node : Nat} {rest : Frontier α}
  (popped : state.frontier.pop? = some (node, rest)) (noGoal : query.goal = none)

include wellFormed inside popped

/-- Expanding a node loses no node that has been found. -/
theorem Sound.found_expand (sound : Sound query state) {other : Nat}
    (found : IsFound query state other) : IsFound query (expand query node rest state) other := by
  have nodeInside := (sound.popped_found wellFormed inside popped).2
  rcases get_expand_cases wellFormed sound.valid nodeInside rest other with same | ⟨-, offered⟩
  · rwa [IsFound, same, (get_close_arrival query sound.valid nodeInside rest other).2]
  · rcases (mem_offersFrom wellFormed nodeInside).mp offered with ⟨link, -, -, -, -, offer⟩
    exact .inr (by rw [← offer]; rfl)

variable [IsStrictOrder α (· < ·)]

include noGoal

/-- Expanding a node finds the destinations of its links along which one can go on. -/
theorem Sound.found_destination (sound : Sound query state) {link : Graph.Link α}
    (member : link ∈ query.graph.links) (leaves : link.origin = node)
    (leadsOn : query.cost.LeadsOn (state.labels.get node).arrival link) :
    IsFound query (expand query node rest state) link.destination := by
  by_contra unfound
  have nodeInside := (sound.popped_found wellFormed inside popped).2
  have closed := sound.close wellFormed inside popped
  have unknown := (sound.expand wellFormed inside popped).unknown _ unfound
  -- Nothing is known about the destination, so what the link offers is better.
  have wasUnknown :
      (close query node rest state).labels.get link.destination = Label.unknown := by
    refine closed.unknown _ fun found => unfound ?_
    refine sound.found_expand wellFormed inside popped ?_
    rwa [IsFound, (get_close_arrival query sound.valid nodeInside rest _).2] at found
  have offered : query.offer (state.labels.get node) link ∈
      query.offersFrom (state.labels.get node) node link.destination :=
    (mem_offersFrom wellFormed nodeInside).mpr ⟨link, member, leaves, rfl,
      Bool.and_eq_true_iff.mpr ⟨leadsOn.priced, leadsOn.ends⟩, rfl⟩
  rw [get_expand wellFormed sound.valid nodeInside, wasUnknown,
    if_neg (by simp [isFinal_eq noGoal, Label.unknown])] at unknown
  exact foldl_better_eq_self unknown offered leadsOn.below

/-- A search goes on from the node that it expands, as it has from the others. -/
theorem GoesOn.expand (goesOn : GoesOn query state) (sound : Sound query state) :
    GoesOn query (Search.expand query node rest state) := by
  intro link member settled leadsOn
  have nodeInside := (sound.popped_found wellFormed inside popped).2
  rcases get_expand_cases wellFormed sound.valid nodeInside rest link.origin with
    same | ⟨-, offered⟩
  · rw [same, (get_close_arrival query sound.valid nodeInside rest link.origin).1] at leadsOn
    by_cases leaves : link.origin = node
    · rw [leaves] at leadsOn
      exact sound.found_destination wellFormed inside popped noGoal member leaves leadsOn
    · rw [same, get_close query sound.valid nodeInside, if_neg leaves] at settled
      exact sound.found_expand wellFormed inside popped (goesOn link member settled leadsOn)
  · rcases (mem_offersFrom wellFormed nodeInside).mp offered with ⟨other, -, -, -, -, offer⟩
    rw [← offer] at settled
    cases settled

end Steps

omit wellFormed in
include inside in
theorem goesOn_initial {scratch : Scratch α} (blank : Blank query.graph.size scratch) :
    GoesOn query (initial query scratch) := by
  intro link _ settled _
  rw [get_initial blank inside] at settled
  split_ifs at settled <;> cases settled

section Run

variable [IsStrictOrder α (· < ·)] (noGoal : query.goal = none) (keepsAll : query.KeepsAll)
  {scratch : Scratch α} (blank : Blank query.graph.size scratch)

include wellFormed inside noGoal keepsAll blank

/-- A search that prunes nothing goes on from all that it settles. -/
theorem goesOn_of_reaches {state : State α} (reaches : Reaches query (initial query scratch) state) :
    GoesOn query state := by
  have both : Sound query state ∧ GoesOn query state := by
    refine reaches.keeps (fun state => Sound query state ∧ GoesOn query state) ?_
      ⟨sound_initial blank inside, goesOn_initial inside blank⟩
    rintro state next ⟨sound, goesOn⟩ step
    refine ⟨sound.step wellFormed inside step, ?_⟩
    cases step with
    | prune _ beyond =>
        rw [isBeyond, keepsAll] at beyond
        cases beyond
    | expand popped _ _ => exact goesOn.expand wellFormed inside popped noGoal sound
  exact both.2

end Run

/-! ## When nothing waits any more -/

section Exhausted

variable {state : State α} (rooted : Rooted query state) (goesOn : GoesOn query state)
  (exhausted : state.frontier.pop? = none)
  (unpruned : ∀ node, (state.labels.get node).pruned = false)
  (passable : ∀ link ∈ query.graph.links, query.cost.prices link = true ∧
    ∀ time, Scalar.isFinite (query.cost.travelTime link time) = true)
  (below : query.cost.StaysBelow query.graph query.source query.start)

include rooted goesOn exhausted unpruned passable below

/-- Links lead from settled nodes to settled nodes. -/
theorem Rooted.settled_of_link {link : Graph.Link α} (member : link ∈ query.graph.links)
    (settled : (state.labels.get link.origin).settled = true) :
    (state.labels.get link.destination).settled = true := by
  by_contra unsettled
  have unfound : ¬ IsFound query state link.destination := fun found =>
    unsettled (rooted.settled_of_found exhausted unpruned found)
  rcases rooted.exists_simple settled with ⟨links, traced, once, visitsSettled⟩
  rcases passable link member with ⟨priced, ends⟩
  -- The way to the origin does not visit the destination, so the link prolongs it.
  have journey := (traced.journey rooted.origin_arrival).go member rfl (ends _)
  have apart : link.destination ∉ query.source :: links.map (·.destination) := fun visited =>
    unsettled (visitsSettled _ visited)
  have longer : (query.source :: (links ++ [link]).map (·.destination)).Nodup := by
    rw [List.map_append, ← List.cons_append]
    refine List.nodup_append.mpr ⟨once, List.nodup_singleton _, ?_⟩
    rintro visited known _ isLast rfl
    obtain rfl : visited = link.destination := List.mem_singleton.mp isLast
    exact apart known
  exact unfound (goesOn link member settled ⟨priced, ends _, below _ _ _ journey longer⟩)

/-- Walks lead from settled nodes to settled nodes. -/
theorem Rooted.settled_of_walk {origin node : Nat} {links : List (Graph.Link α)}
    (walk : query.graph.Walk origin links node)
    (settled : (state.labels.get origin).settled = true) :
    (state.labels.get node).settled = true := by
  induction walk with
  | stay => exact settled
  | go member _ ih =>
      exact ih (rooted.settled_of_link goesOn exhausted unpruned passable below member settled)

end Exhausted

end Search

namespace PathTree

variable {graph : Graph α} {cost : CostModel α} {landmarks : Option (Landmarks α)}
  {tree : PathTree α}

/-- Where every link can be used at all times, and journeys that visit no node twice cost
less than infinity, a search without bounds reports all nodes that walks lead to. -/
theorem calculate_of_walks [IsStrictOrder α (· < ·)] (wellFormed : graph.WellFormed)
    (passable : ∀ link ∈ graph.links, cost.prices link = true ∧
      ∀ time, Scalar.isFinite (cost.travelTime link time) = true)
    (used : Used graph cost landmarks tree) {source : Nat} (inside : source < graph.size)
    {departure : α} (below : cost.StaysBelow graph source departure) :
    ∃ answered, tree.calculate source departure .unbounded = .ok answered ∧
      ∀ links node, graph.Walk source links node → (answered.time? node).isSome = true := by
  rcases used.calculate_ok wellFormed (fun link member => (passable link member).1) inside
    departure .unbounded nofun with ⟨_, final, answered, blank, ran, done, answers⟩
  let query := queryOn graph cost landmarks source departure .unbounded none
  have keepsAll : query.KeepsAll := fun _ _ => rfl
  have rooted : Search.Rooted query final :=
    Search.run_rooted wellFormed inside rfl blank ran
  rcases Search.run_reaches rfl rfl ran with ⟨reaches, exhausted⟩
  have unpruned := Search.unpruned_of_reaches wellFormed inside keepsAll blank reaches
  have goesOn := Search.goesOn_of_reaches wellFormed inside rfl keepsAll blank reaches
  refine ⟨answered, done, fun links node walk => ?_⟩
  have settled := rooted.settled_of_walk goesOn exhausted unpruned passable below walk
    (rooted.settled_of_found exhausted unpruned (.inl rfl))
  rw [(answers.reports wellFormed inside rooted settled).1]
  rfl

end PathTree

end JourneyTimes
