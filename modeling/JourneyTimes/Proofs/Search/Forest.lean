import JourneyTimes.Proofs.Search.Linked
import JourneyTimes.Proofs.Search.Rooted
import JourneyTimes.Proofs.Search.Trail

/-!
# Last links form a forest

Where no link has a negative cost, the links that labels name lead back to the source from
every node that has been found.  This holds of all searches, whether or not they return to
settled nodes, and of every state that they pass, also between two links of one node.

A label is given up only for one that costs less.  The nodes on the trail of a label cost no
more than the label, and so do those on its chain of last links.  The end of a link
that improves a label is therefore on neither of them, and no cycle is closed, not even by
links that cost nothing.
-/

namespace JourneyTimes.Search

open Scalar (Accumulates)

variable {α : Type} [Scalar α] {query : Query α}

/-- What is asked of a search for its last links to form a forest: the graph is one of a
network, the search starts at a node, and no journey meets a negative cost. -/
structure Query.IsWellPosed (query : Query α) : Prop where
  wellFormed : query.graph.WellFormed
  source_lt : query.source < query.graph.size
  nonneg : query.cost.IsNonnegativeFrom query.graph query.source query.start

/-- What holds of every state of a search that meets no negative cost. -/
structure Forest (query : Query α) (state : State α) : Prop extends Queued query state where
  origin_arrival : (state.labels.get query.source).arrival = Arrival.departure query.start
  origin_via : (state.labels.get query.source).via = none
  rising : ∀ link ∈ query.graph.links,
    (state.labels.get link.destination).via = some link.index →
      (state.labels.get link.origin).cost ≤ (state.labels.get link.destination).cost
  linked : ∀ node, IsFound query state node →
    ∃ links, Linked query state.labels.get links node
  tracked : ∀ node, IsFound query state node →
    ∃ links, Trail query state links node (state.labels.get node).arrival

/-- Labels are kept, or given up for cheaper ones. -/
def Renews (state next : State α) : Prop :=
  ∀ node, next.labels.get node = state.labels.get node ∨
    (next.labels.get node).cost < (state.labels.get node).cost

omit [Scalar α] in
theorem Linked.isFound {state : State α} {links : List (Graph.Link α)} {node : Nat}
    (linked : Linked query state.labels.get links node) : IsFound query state node := by
  cases linked with
  | stay => exact .inl rfl
  | go _ _ named => exact .inr (Option.isSome_of_eq_some named)

namespace Forest

theorem node_lt {state : State α} (forest : Forest query state) (posed : query.IsWellPosed)
    {node : Nat} (found : IsFound query state node) : node < query.graph.size := by
  rcases forest.tracked node found with ⟨links, trail⟩
  exact trail.journey.node_lt posed.wellFormed posed.source_lt

theorem popped_found {state : State α} (forest : Forest query state)
    (posed : query.IsWellPosed) {node : Nat} {rest : Frontier α}
    (popped : state.frontier.pop? = some (node, rest)) :
    IsWaiting query state node ∧ node < query.graph.size := by
  have waits := (forest.waits_iff node).mp (Frontier.pop?_eq_some popped).1
  exact ⟨waits, forest.node_lt posed waits.1⟩

/-- Last links never make a cycle. -/
theorem acyclic {state : State α} (forest : Forest query state) (posed : query.IsWellPosed)
    (node : Nat) :
    ¬ Relation.TransGen (Precedes query.graph state.labels.get) node node := by
  intro cycle
  rcases Relation.TransGen.tail'_iff.mp cycle with ⟨before, -, link, found, -⟩
  rcases Option.bind_eq_some_iff.mp found with ⟨index, named, -⟩
  have isFound : IsFound query state node := .inr (Option.isSome_of_eq_some named)
  rcases forest.linked node isFound with ⟨links, linked⟩
  exact linked.acyclic posed.wellFormed forest.origin_via cycle

/-- Marking nodes leaves a forest, as nothing changes about the ways to them. -/
theorem mark {state next : State α} (forest : Forest query state) (same : SameWays state next)
    (queued : Queued query next) : Forest query next where
  toQueued := queued
  origin_arrival := (same query.source).1.trans forest.origin_arrival
  origin_via := (same query.source).2.trans forest.origin_via
  rising := by
    intro link member named
    rw [(same link.destination).2] at named
    rw [Label.cost_congr (same link.origin).1, Label.cost_congr (same link.destination).1]
    exact forest.rising link member named
  linked := by
    intro node found
    rcases forest.linked node ((same.found_iff node).mp found) with ⟨links, linked⟩
    exact ⟨links, linked.congr fun visited _ => (same visited).2⟩
  tracked := by
    intro node found
    rcases forest.tracked node ((same.found_iff node).mp found) with ⟨links, trail⟩
    rw [(same node).1]
    refine ⟨links, trail.mono ?_⟩
    intro visited bound atMost
    rwa [Label.cost_congr (same visited).1]

variable [Accumulates α]

theorem cost_nonneg {state : State α} (forest : Forest query state)
    (posed : query.IsWellPosed) {node : Nat} (found : IsFound query state node) :
    0 ≤ (state.labels.get node).cost := by
  rcases forest.tracked node found with ⟨links, trail⟩
  exact trail.journey.cost_nonneg posed.nonneg

/-- The nodes on a chain cost no more than the one that it leads to. -/
theorem cost_le_of_linked {state : State α} (forest : Forest query state)
    (posed : query.IsWellPosed) {links : List (Graph.Link α)} {node : Nat}
    (linked : Linked query state.labels.get links node) {visited : Nat}
    (passed : visited ∈ query.source :: links.map (·.destination)) :
    (state.labels.get visited).cost ≤ (state.labels.get node).cost := by
  have itself {node : Nat} {links : List (Graph.Link α)}
      (linked : Linked query state.labels.get links node) :
      (state.labels.get node).cost ≤ (state.labels.get node).cost :=
    Accumulates.le_self_of_le (forest.cost_nonneg posed linked.isFound)
  induction linked with
  | stay =>
      obtain rfl : visited = query.source := by simpa using passed
      exact itself .stay
  | @go links link before member named ih =>
      rw [List.map_append, ← List.cons_append, List.mem_append] at passed
      rcases passed with earlier | last
      · exact Accumulates.le_trans (ih earlier) (forest.rising link member named)
      · obtain rfl : visited = link.destination := by simpa using last
        exact itself (before.go member named)

/-- In the first state the source has the trail and the chain without links. -/
protected theorem initial (posed : query.IsWellPosed) {scratch : Scratch α}
    (blank : Blank query.graph.size scratch) : Forest query (Search.initial query scratch) := by
  have get := get_initial blank posed.source_lt
  have origin : (Search.initial query scratch).labels.get query.source =
      Label.origin query.start := by
    rw [get, if_pos rfl]
  have isSource {node : Nat} (found : IsFound query (Search.initial query scratch) node) :
      node = query.source := by
    rcases found with same | via
    · exact same
    · by_contra apart
      rw [get, if_neg apart] at via
      cases via
  constructor
  case toQueued => exact (sound_initial blank posed.source_lt).toQueued
  case origin_arrival =>
    rw [origin]
    rfl
  case origin_via =>
    rw [origin]
    rfl
  case rising =>
    intro link _ named
    rw [get] at named
    split_ifs at named <;> cases named
  case linked =>
    intro node found
    obtain rfl := isSource found
    exact ⟨[], .stay⟩
  case tracked =>
    intro node found
    obtain rfl := isSource found
    rw [origin]
    refine ⟨[], .stay, List.nodup_singleton _, ?_⟩
    intro visited passed
    obtain rfl : visited = query.source := by simpa using passed
    rw [origin]
    exact Accumulates.zero_le_zero

end Forest

/-! ## Taking a link -/

/-- The state in which the label at the end of a link is the one that the link offers. -/
def accept (query : Query α) (here : Label α) (state : State α) (link : Graph.Link α) :
    State α :=
  { state with
    labels := state.labels.improve link.destination (query.offer here link)
    frontier := state.frontier.push link.destination
      ((query.offer here link).cost + query.potential link.destination) }

/-- A link from a node with a label offers a better label to its end. -/
structure Improves (query : Query α) (here : Label α) (state : State α)
    (link : Graph.Link α) : Prop where
  member : link ∈ query.graph.links
  found : IsFound query state link.origin
  same : (state.labels.get link.origin).arrival = here.arrival
  isOpen : query.isFinal (state.labels.get link.destination) = false
  usable : query.uses here link = true
  less : (query.offer here link).cost < (state.labels.get link.destination).cost

namespace Improves

variable {here : Label α} {state : State α} {link : Graph.Link α}
  (improves : Improves query here state link) (posed : query.IsWellPosed)
  (forest : Forest query state)

include improves posed forest

theorem get_accept (node : Nat) :
    (accept query here state link).labels.get node =
      if node = link.destination then query.offer here link else state.labels.get node :=
  get_improve_offer forest.valid (posed.wellFormed.destination_lt link improves.member)
    improves.isOpen node

theorem renews : Renews state (accept query here state link) := by
  intro node
  rw [improves.get_accept posed forest]
  split_ifs with isEnd
  · subst isEnd
    exact .inr improves.less
  · exact .inl rfl

variable [Accumulates α]

/-- What the link offers costs no less than the node that it leaves. -/
theorem le_offer : here.cost ≤ (query.offer here link).cost := by
  rcases forest.tracked link.origin improves.found with ⟨links, trail⟩
  have journey := trail.journey
  rw [improves.same] at journey
  have finite := (Bool.and_eq_true_iff.mp improves.usable).2
  exact Accumulates.le_add (journey.cost_nonneg posed.nonneg)
    (posed.nonneg links _ _ journey link improves.member rfl finite)

/-- A node that costs no more than the one that the link leaves is not the end of the
link. -/
theorem ne_destination {node : Nat} (atMost : (state.labels.get node).cost ≤ here.cost) :
    node ≠ link.destination := by
  rintro rfl
  have dearer := Accumulates.le_trans atMost (improves.le_offer posed forest)
  exact Accumulates.not_lt_of_le dearer improves.less

theorem origin_ne : link.origin ≠ link.destination := by
  apply improves.ne_destination posed forest
  rw [Label.cost_congr improves.same]
  rcases forest.tracked link.origin improves.found with ⟨links, trail⟩
  have nonneg := trail.journey.cost_nonneg posed.nonneg
  rw [improves.same] at nonneg
  exact Accumulates.le_self_of_le nonneg

theorem source_ne : query.source ≠ link.destination := by
  have free : (state.labels.get query.source).cost = 0 :=
    congrArg Arrival.cost forest.origin_arrival
  apply improves.ne_destination posed forest
  rw [← Label.cost_congr improves.same, free]
  exact forest.cost_nonneg posed improves.found

theorem cheapens : Cheapens state (accept query here state link) := by
  intro node bound atMost
  rcases improves.renews posed forest node with same | less
  · rwa [same]
  · exact Accumulates.le_of_lt (Accumulates.lt_of_lt_of_le less atMost)

/-- The label that the link offers is that of a trail. -/
theorem trail_go {links : List (Graph.Link α)}
    (trail : Trail query state links link.origin (state.labels.get link.origin).arrival) :
    Trail query (accept query here state link) (links ++ [link]) link.destination
      (query.offer here link).arrival := by
  rw [improves.same] at trail
  have dear := improves.le_offer posed forest
  have longer {visited : Nat}
      (passed : visited ∈ query.source :: (links ++ [link]).map (·.destination)) :
      visited ∈ query.source :: links.map (·.destination) ∨ visited = link.destination := by
    rw [List.map_append, ← List.cons_append, List.mem_append] at passed
    exact passed.imp_right fun last => by simpa using last
  constructor
  case journey =>
    exact trail.journey.go improves.member rfl (Bool.and_eq_true_iff.mp improves.usable).2
  case once =>
    rw [List.map_append, ← List.cons_append, List.nodup_append]
    refine ⟨trail.once, List.nodup_singleton _, ?_⟩
    rintro visited passed _ last rfl
    obtain rfl : visited = link.destination := by simpa using last
    exact improves.ne_destination posed forest (trail.cheap _ passed) rfl
  case cheap =>
    intro visited passed
    rcases longer passed with earlier | rfl
    · exact improves.cheapens posed forest visited _
        (Accumulates.le_trans (trail.cheap visited earlier) dear)
    · rw [improves.get_accept posed forest, if_pos rfl]
      exact Accumulates.le_self_of_le dear

/-- The link extends the chain of the node that it leaves. -/
theorem linked_go {links : List (Graph.Link α)}
    (linked : Linked query state.labels.get links link.origin) :
    Linked query (accept query here state link).labels.get (links ++ [link])
      link.destination := by
  have get := improves.get_accept posed forest
  apply Linked.go _ improves.member
  · rw [get, if_pos rfl]
    rfl
  · apply linked.congr
    intro visited passed
    have atMost := forest.cost_le_of_linked posed linked passed
    rw [Label.cost_congr improves.same] at atMost
    rw [get, if_neg (improves.ne_destination posed forest atMost)]

/-- A node that had a chain has one that may lead over the link. -/
theorem linked_upto {links : List (Graph.Link α)} {node : Nat}
    (linked : Linked query state.labels.get links node) :
    ∃ others, Linked query (accept query here state link).labels.get others node := by
  have get := improves.get_accept posed forest
  induction linked with
  | stay => exact ⟨[], .stay⟩
  | @go links last _ member named ih =>
      by_cases isEnd : last.destination = link.destination
      · rcases forest.linked link.origin improves.found with ⟨upto, linked⟩
        rw [isEnd]
        exact ⟨_, improves.linked_go posed forest linked⟩
      · rcases ih with ⟨others, linked⟩
        refine ⟨others ++ [last], linked.go member ?_⟩
        rw [get, if_neg isEnd]
        exact named

/-- Taking a link that improves a label leaves a forest. -/
theorem forest_accept (queued : Queued query (accept query here state link)) :
    Forest query (accept query here state link) := by
  have get := improves.get_accept posed forest
  have isFound {node : Nat} (apart : node ≠ link.destination)
      (found : IsFound query (accept query here state link) node) :
      IsFound query state node := by
    rwa [IsFound, get, if_neg apart] at found
  constructor
  case toQueued => exact queued
  case origin_arrival =>
    rw [get, if_neg (improves.source_ne posed forest)]
    exact forest.origin_arrival
  case origin_via =>
    rw [get, if_neg (improves.source_ne posed forest)]
    exact forest.origin_via
  case rising =>
    intro other member named
    by_cases isEnd : other.destination = link.destination
    · -- The label names the link that was taken, and no other.
      rw [get, if_pos isEnd] at named
      obtain rfl := posed.wellFormed.eq_of_index improves.member member (Option.some.inj named)
      rw [get, if_neg (improves.origin_ne posed forest), get, if_pos rfl,
        Label.cost_congr improves.same]
      exact improves.le_offer posed forest
    · rw [get, if_neg isEnd] at named
      rw [get other.destination, if_neg isEnd]
      exact improves.cheapens posed forest other.origin _ (forest.rising other member named)
  case linked =>
    intro node found
    by_cases isEnd : node = link.destination
    · subst isEnd
      rcases forest.linked link.origin improves.found with ⟨links, linked⟩
      exact ⟨links ++ [link], improves.linked_go posed forest linked⟩
    · rcases forest.linked node (isFound isEnd found) with ⟨links, linked⟩
      exact improves.linked_upto posed forest linked
  case tracked =>
    intro node found
    by_cases isEnd : node = link.destination
    · subst isEnd
      rcases forest.tracked link.origin improves.found with ⟨links, trail⟩
      rw [get, if_pos rfl]
      exact ⟨links ++ [link], improves.trail_go posed forest trail⟩
    · rcases forest.tracked node (isFound isEnd found) with ⟨links, trail⟩
      rw [get, if_neg isEnd]
      exact ⟨links, trail.mono (improves.cheapens posed forest)⟩

end Improves

/-! ## Steps -/

namespace Forest

section Marking

variable {state : State α} (forest : Forest query state) (posed : query.IsWellPosed)
  {node : Nat} {rest : Frontier α} (popped : state.frontier.pop? = some (node, rest))

include forest posed popped

protected theorem prune : Forest query (Search.prune node rest state) := by
  rcases forest.popped_found posed popped with ⟨-, nodeInside⟩
  have get := get_prune forest.valid nodeInside rest
  refine forest.mark (sameWays_prune forest.valid nodeInside rest)
    (queued_of_pop? forest.toQueued popped rfl (forest.valid.prune _) ?_ (.inr ?_))
  · intro other apart
    rw [get, if_neg apart]
  · rw [get, if_pos rfl]

protected theorem close : Forest query (Search.close query node rest state) := by
  rcases forest.popped_found posed popped with ⟨-, nodeInside⟩
  have get := get_close query forest.valid nodeInside rest
  refine forest.mark (get_close_arrival query forest.valid nodeInside rest)
    (queued_of_pop? forest.toQueued popped rfl (forest.valid.settle _) ?_ (.inl ?_))
  · intro other apart
    rw [get, if_neg apart]
  · rw [get, if_pos rfl]

end Marking

variable [Accumulates α] {state : State α} {here : Label α}

/-- Relaxing a link leaves a forest, and the node that it leaves as it was. -/
theorem relax (forest : Forest query state) (posed : query.IsWellPosed)
    {link : Graph.Link α} (member : link ∈ query.graph.links)
    (found : IsFound query state link.origin)
    (same : (state.labels.get link.origin).arrival = here.arrival) :
    Forest query (Search.relax query here state link) ∧
      Renews state (Search.relax query here state link) ∧
      (Search.relax query here state link).labels.get link.origin =
        state.labels.get link.origin := by
  have queued : Queued query (Search.relax query here state link) :=
    queued_relax forest.toQueued (posed.wellFormed.destination_lt link member)
  rcases relax_cases query here state link with
    ⟨-, stray, kept, -⟩ | ⟨isOpen, usable, less, taken⟩
  · rw [kept]
    rw [kept] at queued
    exact ⟨forest.mark (fun _ => ⟨rfl, rfl⟩) queued, fun _ => .inl rfl, rfl⟩
  · have improves : Improves query here state link :=
      ⟨member, found, same, isOpen, usable, less⟩
    have accepted : Search.relax query here state link = accept query here state link := taken
    rw [accepted] at queued ⊢
    refine ⟨improves.forest_accept posed forest queued, improves.renews posed forest, ?_⟩
    rw [improves.get_accept posed forest, if_neg (improves.origin_ne posed forest)]

/-- Relaxing some links of a node leaves a forest. -/
theorem foldl_relax (forest : Forest query state) (posed : query.IsWellPosed) {node : Nat}
    (found : IsFound query state node) (same : (state.labels.get node).arrival = here.arrival)
    (links : List (Graph.Link α))
    (leaving : ∀ link ∈ links, link ∈ query.graph.links ∧ link.origin = node) :
    Forest query (links.foldl (Search.relax query here) state) ∧
      Renews state (links.foldl (Search.relax query here) state) := by
  induction links generalizing state with
  | nil => exact ⟨forest, fun _ => .inl rfl⟩
  | cons link links ih =>
      rcases leaving link (List.mem_cons_self ..) with ⟨member, rfl⟩
      rcases forest.relax posed member found same with ⟨next, renews, kept⟩
      have stillFound : IsFound query (Search.relax query here state link) link.origin := by
        rwa [IsFound, kept]
      rcases ih next stillFound (by rwa [kept])
          (fun other isIn => leaving other (List.mem_cons_of_mem _ isIn)) with
        ⟨last, later⟩
      refine ⟨last, fun other => ?_⟩
      rcases renews other with unchanged | less
      · rw [← unchanged]
        exact later other
      · rcases later other with unchanged | lesser
        · exact .inr (unchanged ▸ less)
        · exact .inr (Accumulates.lt_trans lesser less)

variable (forest : Forest query state) (posed : query.IsWellPosed) {node : Nat}
  {rest : Frontier α} (popped : state.frontier.pop? = some (node, rest))

include forest posed popped

/-- A node that came out of the frontier leaves a forest, however many of its links have
been relaxed. -/
theorem expand_upto {done : List (Graph.Link α)}
    (links : done ⊆ query.graph.linksAt .outgoing node) :
    Forest query (done.foldl (Search.relax query (state.labels.get node))
        (Search.close query node rest state)) ∧
      Renews (Search.close query node rest state)
        (done.foldl (Search.relax query (state.labels.get node))
          (Search.close query node rest state)) := by
  rcases forest.popped_found posed popped with ⟨waits, nodeInside⟩
  have same : SameWays state (Search.close query node rest state) :=
    get_close_arrival query forest.valid nodeInside rest
  refine (forest.close posed popped).foldl_relax posed ((same.found_iff node).mpr waits.1)
    (same node).1 done ?_
  intro link isIn
  exact (posed.wellFormed.mem_linksAt nodeInside).mp (links isIn)

protected theorem expand : Forest query (Search.expand query node rest state) :=
  (forest.expand_upto posed popped (List.Subset.refl _)).1

theorem expand_renews :
    Renews (Search.close query node rest state) (Search.expand query node rest state) :=
  (forest.expand_upto posed popped (List.Subset.refl _)).2

end Forest

/-- The states that a search passes: those between two steps, and those in which some of
the links of the node that came out have been relaxed.  A search that is over relaxes none
of them. -/
inductive Passes (query : Query α) (first : State α) : State α → Prop where
  | between {state : State α} (reaches : Reaches query first state) :
      Passes query first state
  | amid {state : State α} {node : Nat} {rest : Frontier α}
      {done todo : List (Graph.Link α)} (reaches : Reaches query first state)
      (popped : state.frontier.pop? = some (node, rest))
      (within : isBeyond query node state = false)
      (links : query.graph.linksAt .outgoing node = done ++ todo)
      (stops : isOver query node (close query node rest state) = true → done = []) :
      Passes query first
        (done.foldl (relax query (state.labels.get node)) (close query node rest state))

section Runs

variable [Accumulates α]

/-- Every step leaves a forest. -/
theorem Forest.step (posed : query.IsWellPosed) {state next : State α}
    (forest : Forest query state) (step : Step query state next) : Forest query next := by
  cases step with
  | prune popped _ => exact forest.prune posed popped
  | expand popped _ _ => exact forest.expand posed popped

/-- Every state that a search passes is a forest. -/
theorem Forest.passes (posed : query.IsWellPosed) {first state : State α}
    (forest : Forest query first) (passes : Passes query first state) :
    Forest query state := by
  have reached {state : State α} (reaches : Reaches query first state) : Forest query state :=
    reaches.keeps (Forest query) (fun holds step => holds.step posed step) forest
  cases passes with
  | between reaches => exact reached reaches
  | @amid before node _ done todo reaches popped _ links _ =>
      have upto : done ⊆ query.graph.linksAt .outgoing node := by
        rw [links]
        exact List.subset_append_left done todo
      exact ((reached reaches).expand_upto posed popped upto).1

omit [Accumulates α] in
/-- A search passes the state that it ends with. -/
theorem Ends.passes {first last final : State α} (reaches : Reaches query first last)
    (ends : Ends query last final) : Passes query first final := by
  cases ends with
  | exhausted _ => exact .between reaches
  | @arrived node rest popped within _ =>
      show Passes query first (([] : List (Graph.Link α)).foldl
        (relax query (last.labels.get node)) (close query node rest last))
      exact .amid reaches popped within rfl fun _ => rfl

/-- Every search leaves a forest. -/
theorem run_forest (posed : query.IsWellPosed) {scratch : Scratch α}
    (blank : Blank query.graph.size scratch) {final : State α}
    (ran : run query scratch = .ok final) : Forest query final := by
  rcases ends_of_run ran with ⟨last, reaches, ends⟩
  exact (Forest.initial posed blank).passes posed (ends.passes reaches)

end Runs

end JourneyTimes.Search
