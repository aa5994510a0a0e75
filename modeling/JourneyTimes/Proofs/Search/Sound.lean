import JourneyTimes.Proofs.Graph.Journey
import JourneyTimes.Proofs.Search.Relax

/-!
# Labels stand for journeys

Whatever the costs of links are, three things hold of every state of a search.
The frontier holds the nodes that have been found and are neither settled nor
pruned, each once.  A node that has been found has the label of a journey to it
from the source.  And nothing is known about any other node.
-/

namespace JourneyTimes

/-- What a label says about getting to its node. -/
def Label.arrival {α : Type} (label : Label α) : Arrival α :=
  ⟨label.cost, label.time, label.distance⟩

namespace Label

variable {α : Type} {left right : Label α} (same : left.arrival = right.arrival)

include same

theorem cost_congr : left.cost = right.cost := congrArg Arrival.cost same

theorem time_congr : left.time = right.time := congrArg Arrival.time same

theorem distance_congr : left.distance = right.distance := congrArg Arrival.distance same

end Label

namespace Search

variable {α : Type} [Scalar α] {query : Query α}

/-- Whether a search has found a way to a node. -/
def IsFound (query : Query α) (state : State α) (node : Nat) : Prop :=
  node = query.source ∨ (state.labels.get node).via.isSome = true

/-- Whether a node has been found, and not been dealt with. -/
def IsWaiting (query : Query α) (state : State α) (node : Nat) : Prop :=
  IsFound query state node ∧ (state.labels.get node).settled = false ∧
    (state.labels.get node).pruned = false

omit [Scalar α] in
theorem IsWaiting.not_settled {state : State α} {node : Nat}
    (waits : IsWaiting query state node) : ¬ (state.labels.get node).settled = true :=
  Bool.eq_false_iff.mp waits.2.1

/-- The frontier holds the waiting nodes, each once. -/
structure Queued (query : Query α) (state : State α) : Prop where
  valid : state.labels.Valid query.graph.size
  once : state.frontier.nodes.Nodup
  waits_iff : ∀ node, node ∈ state.frontier.nodes ↔ IsWaiting query state node

/-- What holds of every state of a search. -/
structure Sound (query : Query α) (state : State α) : Prop extends Queued query state where
  unknown : ∀ node, ¬ IsFound query state node → state.labels.get node = Label.unknown
  realised : ∀ node, IsFound query state node →
    ∃ links, Journey query.graph query.cost query.source (Arrival.departure query.start)
      links node (state.labels.get node).arrival

/-- Only nodes that have been found are settled. -/
theorem Sound.found_of_settled {state : State α} (sound : Sound query state) {node : Nat}
    (settled : (state.labels.get node).settled = true) : IsFound query state node := by
  by_contra unfound
  rw [sound.unknown node unfound] at settled
  cases settled

/-- Nothing waits when nothing comes out of the frontier. -/
theorem Queued.not_waiting {state : State α} (queued : Queued query state)
    (popped : state.frontier.pop? = none) (node : Nat) : ¬ IsWaiting query state node := by
  rw [← queued.waits_iff, Frontier.pop?_eq_none_iff.mp popped]
  exact List.not_mem_nil

/-- When nothing waits and nothing is pruned, all nodes that have been found are
settled. -/
theorem Queued.settled_of_found {state : State α} (queued : Queued query state)
    (popped : state.frontier.pop? = none)
    (unpruned : ∀ node, (state.labels.get node).pruned = false) {node : Nat}
    (found : IsFound query state node) : (state.labels.get node).settled = true := by
  by_contra waiting
  exact queued.not_waiting popped node ⟨found, Bool.eq_false_iff.mpr waiting, unpruned node⟩

/-! ## The first state -/

/-- What a search begins with: labels that know no node, nothing that waits and nothing that
has been settled. -/
structure Blank (size : Nat) (scratch : Scratch α) : Prop where
  valid : scratch.labels.Valid size
  get_eq : ∀ node, scratch.labels.get node = Label.unknown
  frontier_eq : scratch.frontier = Frontier.empty
  settled_eq : scratch.settled = #[]

/-- Whatever a search has left, a reset leaves nothing of it. -/
theorem Blank.reset {size : Nat} {scratch : Scratch α} (valid : scratch.labels.Valid size) :
    Blank size scratch.reset where
  valid := valid.reset
  get_eq := valid.get_reset
  frontier_eq := rfl
  settled_eq := rfl

theorem get_initial {scratch : Scratch α} (blank : Blank query.graph.size scratch)
    (inside : query.source < query.graph.size) (node : Nat) :
    (initial query scratch).labels.get node =
      if node = query.source then Label.origin query.start else Label.unknown := by
  rw [initial, blank.valid.get_depart inside, blank.get_eq, blank.get_eq]
  rfl

theorem frontier_initial {size : Nat} {scratch : Scratch α} (blank : Blank size scratch) :
    (initial query scratch).frontier =
      Frontier.empty.push query.source (query.potential query.source) := by
  rw [initial, blank.frontier_eq]

theorem entries_initial {size : Nat} {scratch : Scratch α} (blank : Blank size scratch) :
    (initial query scratch).frontier.entries =
      [⟨query.potential query.source, query.source⟩] := by
  rw [frontier_initial blank]
  simp [Frontier.push, Frontier.empty]

theorem settled_initial {size : Nat} {scratch : Scratch α} (blank : Blank size scratch) :
    (initial query scratch).settled.toList = [] := by
  rw [initial, blank.settled_eq]

/-- The source is on file, and nothing else. -/
theorem sound_initial {scratch : Scratch α} (blank : Blank query.graph.size scratch)
    (inside : query.source < query.graph.size) : Sound query (initial query scratch) := by
  have get := get_initial blank inside
  have found (node : Nat) : IsFound query (initial query scratch) node ↔ node = query.source := by
    rw [IsFound, get]
    split <;> simp_all [Label.origin, Label.unknown]
  refine ⟨⟨blank.valid.depart _ _, ?_, ?_⟩, ?_, ?_⟩
  · simp [frontier_initial blank, Frontier.push, Frontier.empty, Frontier.nodes]
  · intro node
    rw [IsWaiting, found, get]
    simp only [frontier_initial blank, Frontier.mem_nodes_push]
    constructor
    · rintro (same | other)
      · rw [if_pos same]
        exact ⟨same, rfl, rfl⟩
      · simp [Frontier.empty, Frontier.nodes] at other
    · exact fun waiting => .inl waiting.1
  · intro node unfound
    rw [get, if_neg ((found node).not.mp unfound)]
  · intro node isFound
    rcases (found node).mp isFound with rfl
    rw [get, if_pos rfl]
    exact ⟨[], .stay⟩

/-! ## Labels after a step -/

theorem lt_of_waits {state : State α} (sound : Sound query state)
    (wellFormed : query.graph.WellFormed) (inside : query.source < query.graph.size)
    {node : Nat} (found : IsFound query state node) : node < query.graph.size := by
  rcases sound.realised node found with ⟨links, journey⟩
  exact journey.node_lt wellFormed inside

theorem get_prune {state : State α} (valid : state.labels.Valid query.graph.size)
    {node : Nat} (inside : node < query.graph.size) (rest : Frontier α) (other : Nat) :
    (prune node rest state).labels.get other =
      if other = node then { state.labels.get node with pruned := true }
      else state.labels.get other :=
  valid.get_prune inside other

/-- Pruning a node changes nothing about the way to any node. -/
theorem get_prune_arrival {state : State α} (valid : state.labels.Valid query.graph.size)
    {node : Nat} (inside : node < query.graph.size) (rest : Frontier α) (other : Nat) :
    ((prune node rest state).labels.get other).arrival = (state.labels.get other).arrival := by
  rw [get_prune valid inside]
  split_ifs with equal
  · rw [equal]
    rfl
  · rfl

/-- Pruning a node settles none. -/
theorem get_prune_settled {state : State α} (valid : state.labels.Valid query.graph.size)
    {node : Nat} (inside : node < query.graph.size) (rest : Frontier α) (other : Nat) :
    ((prune node rest state).labels.get other).settled = (state.labels.get other).settled := by
  rw [get_prune valid inside]
  split_ifs with equal
  · rw [equal]
  · rfl

theorem get_close (query : Query α) {state : State α}
    (valid : state.labels.Valid query.graph.size)
    {node : Nat} (inside : node < query.graph.size) (rest : Frontier α) (other : Nat) :
    (close query node rest state).labels.get other =
      if other = node then { state.labels.get node with settled := true }
      else state.labels.get other :=
  valid.get_settle inside other

/-- Settling a node settles it, and no other. -/
theorem get_close_settled (query : Query α) {state : State α}
    (valid : state.labels.Valid query.graph.size) {node : Nat}
    (inside : node < query.graph.size) (rest : Frontier α) (other : Nat) :
    ((close query node rest state).labels.get other).settled = true ↔
      other = node ∨ (state.labels.get other).settled = true := by
  rw [get_close query valid inside]
  split_ifs with equal <;> simp [equal]

/-- Settling a node prunes none. -/
theorem get_close_pruned (query : Query α) {state : State α}
    (valid : state.labels.Valid query.graph.size) {node : Nat}
    (inside : node < query.graph.size) (rest : Frontier α) (other : Nat) :
    ((close query node rest state).labels.get other).pruned =
      (state.labels.get other).pruned := by
  rw [get_close query valid inside]
  split_ifs with equal <;> simp [equal]

/-- Settling a node changes nothing about the way to any node. -/
theorem get_close_arrival (query : Query α) {state : State α}
    (valid : state.labels.Valid query.graph.size) {node : Nat}
    (inside : node < query.graph.size) (rest : Frontier α) (other : Nat) :
    ((close query node rest state).labels.get other).arrival =
        (state.labels.get other).arrival ∧
      ((close query node rest state).labels.get other).via = (state.labels.get other).via := by
  rw [get_close query valid inside]
  split_ifs with equal
  · rw [equal]
    exact ⟨rfl, rfl⟩
  · exact ⟨rfl, rfl⟩

/-- Whether the bounds exclude a node depends on the way to it only. -/
theorem isBeyond_congr (query : Query α) {state next : State α} {node : Nat}
    (same : (next.labels.get node).arrival = (state.labels.get node).arrival) :
    isBeyond query node next = isBeyond query node state := by
  rw [isBeyond, isBeyond, Label.time_congr same, Label.distance_congr same]

/-- The labels that settling a node offers another one. -/
def Query.offersFrom (query : Query α) (here : Label α) (origin node : Nat) :
    List (Label α) :=
  query.offers here (query.graph.linksAt .outgoing origin) node

theorem mem_offersFrom (wellFormed : query.graph.WellFormed) {here found : Label α}
    {origin node : Nat} (inside : origin < query.graph.size) :
    found ∈ query.offersFrom here origin node ↔
      ∃ link ∈ query.graph.links, link.origin = origin ∧ link.destination = node ∧
        query.uses here link = true ∧ query.offer here link = found := by
  simp only [Query.offersFrom, mem_offers, wellFormed.mem_linksAt inside, Graph.Link.start,
    and_assoc]

theorem get_expand (wellFormed : query.graph.WellFormed) {state : State α}
    (valid : state.labels.Valid query.graph.size) {node : Nat}
    (inside : node < query.graph.size) (rest : Frontier α) (other : Nat) :
    (expand query node rest state).labels.get other =
      if query.isFinal ((close query node rest state).labels.get other) then
        (close query node rest state).labels.get other
      else (query.offersFrom (state.labels.get node) node other).foldl better
        ((close query node rest state).labels.get other) :=
  get_foldl_relax query _ _
    (fun link member =>
      wellFormed.destination_lt link ((wellFormed.mem_linksAt inside).mp member).1)
    (valid.settle node) other

theorem foldl_better_eq_or_mem (offers : List (Label α)) (known : Label α) :
    offers.foldl better known = known ∨ offers.foldl better known ∈ offers := by
  induction offers generalizing known with
  | nil => exact .inl rfl
  | cons found offers ih =>
      rw [List.foldl_cons]
      rcases ih (better known found) with same | later
      · rw [same]
        unfold better
        split
        · exact .inr (List.mem_cons_self ..)
        · exact .inl rfl
      · exact .inr (List.mem_cons_of_mem _ later)

/-- A label is kept when a node is settled, or it is offered by that node. -/
theorem get_expand_cases (wellFormed : query.graph.WellFormed) {state : State α}
    (valid : state.labels.Valid query.graph.size) {node : Nat}
    (inside : node < query.graph.size) (rest : Frontier α) (other : Nat) :
    (expand query node rest state).labels.get other =
        (close query node rest state).labels.get other ∨
      query.isFinal ((close query node rest state).labels.get other) = false ∧
        (expand query node rest state).labels.get other ∈
          query.offersFrom (state.labels.get node) node other := by
  rw [get_expand wellFormed valid inside]
  split_ifs with final
  · exact .inl rfl
  · rcases foldl_better_eq_or_mem
        (query.offersFrom (state.labels.get node) node other)
        ((close query node rest state).labels.get other) with same | offered
    · exact .inl same
    · exact .inr ⟨by simpa using final, offered⟩

section Improves

variable [IsStrictOrder α (· < ·)]

/-- A label is given up only for one that costs less. -/
theorem foldl_better_eq_or_lt (offers : List (Label α)) (known : Label α) :
    offers.foldl better known = known ∨
      (offers.foldl better known).cost < known.cost := by
  induction offers generalizing known with
  | nil => exact .inl rfl
  | cons found offers ih =>
      rw [List.foldl_cons]
      by_cases less : found.cost < known.cost
      · rw [better, if_pos less]
        rcases ih found with same | cheaper
        · rw [same]
          exact .inr less
        · exact .inr (IsTrans.trans _ _ _ cheaper less)
      · rw [better, if_neg less]
        exact ih known

/-- A label that is kept costs no more than what was offered. -/
theorem foldl_better_eq_self {offers : List (Label α)} {known : Label α}
    (kept : offers.foldl better known = known) {found : Label α}
    (member : found ∈ offers) : ¬ found.cost < known.cost := by
  induction offers with
  | nil => cases member
  | cons first offers ih =>
      rw [List.foldl_cons] at kept
      by_cases less : first.cost < known.cost
      · rw [better, if_pos less] at kept
        rcases foldl_better_eq_or_lt offers first with same | cheaper
        · rw [kept] at same
          rw [same] at less
          exact absurd less (irrefl _)
        · rw [kept] at cheaper
          exact absurd (IsTrans.trans _ _ _ less cheaper) (irrefl _)
      · rw [better, if_neg less] at kept
        rcases List.mem_cons.mp member with rfl | later
        · exact less
        · exact ih kept later

/-- A label is kept when a node is settled, or given up for a cheaper one that is
offered by that node. -/
theorem get_expand_improves (wellFormed : query.graph.WellFormed)
    {state : State α} (valid : state.labels.Valid query.graph.size) {node : Nat}
    (inside : node < query.graph.size) (rest : Frontier α) (other : Nat) :
    (expand query node rest state).labels.get other =
        (close query node rest state).labels.get other ∨
      (expand query node rest state).labels.get other ∈
          query.offersFrom (state.labels.get node) node other ∧
        ((expand query node rest state).labels.get other).cost <
          ((close query node rest state).labels.get other).cost := by
  rcases get_expand_cases wellFormed valid inside rest other with same | ⟨goesOn, offered⟩
  · exact .inl same
  · have labels := get_expand wellFormed valid inside rest other
    rw [if_neg (by simp [goesOn])] at labels
    rcases foldl_better_eq_or_lt (query.offersFrom (state.labels.get node) node other)
        ((close query node rest state).labels.get other) with same | less
    · exact .inl (labels.trans same)
    · exact .inr ⟨offered, labels ▸ less⟩

end Improves

/-! ## What a step keeps -/

theorem queued_relax {here : Label α} {state : State α} {link : Graph.Link α}
    (queued : Queued query state) (inside : link.destination < query.graph.size) :
    Queued query (relax query here state link) := by
  rcases relax_cases query here state link with ⟨-, stray, same, -⟩ | ⟨isOpen, -, -, improved⟩
  · rw [same]
    exact ⟨queued.valid, queued.once, queued.waits_iff⟩
  · rw [improved]
    refine ⟨queued.valid.improve _ _, Frontier.nodup_push queued.once _ _, ?_⟩
    intro node
    rw [Frontier.mem_nodes_push, IsWaiting, IsFound]
    dsimp only
    rw [get_improve_offer queued.valid inside isOpen, queued.waits_iff]
    by_cases same : node = link.destination
    · rw [if_pos same]
      exact iff_of_true (.inl same) ⟨.inr rfl, rfl, rfl⟩
    · rw [if_neg same]
      exact or_iff_right same

theorem queued_foldl_relax {here : Label α} (links : List (Graph.Link α))
    (inside : ∀ link ∈ links, link.destination < query.graph.size) {state : State α}
    (queued : Queued query state) : Queued query (links.foldl (relax query here) state) := by
  induction links generalizing state with
  | nil => exact queued
  | cons link links ih =>
      exact ih (fun other member => inside other (List.mem_cons_of_mem _ member))
        (queued_relax queued (inside link (List.mem_cons_self ..)))

/-- Dealing with the node that came out leaves the other waiting nodes. -/
theorem queued_of_pop? {state next : State α} (queued : Queued query state) {node : Nat}
    {rest : Frontier α} (popped : state.frontier.pop? = some (node, rest))
    (frontier : next.frontier = rest) (valid : next.labels.Valid query.graph.size)
    (others : ∀ other ≠ node, next.labels.get other = state.labels.get other)
    (dealt : (next.labels.get node).settled = true ∨ (next.labels.get node).pruned = true) :
    Queued query next where
  valid := valid
  once := frontier ▸ Frontier.nodup_of_pop? popped queued.once
  waits_iff := by
    intro other
    rw [frontier, Frontier.mem_nodes_of_pop? popped, queued.waits_iff]
    by_cases same : other = node
    · subst same
      apply iff_of_false (fun waits => waits.2 rfl)
      intro waits
      rcases dealt with settled | pruned
      · exact absurd waits.2.1 (by simp [settled])
      · exact absurd waits.2.2 (by simp [pruned])
    · rw [IsWaiting, IsFound, IsWaiting, IsFound, others other same]
      exact and_iff_left same

variable (wellFormed : query.graph.WellFormed) (inside : query.source < query.graph.size)

include wellFormed inside

theorem Sound.popped_found {state : State α} (sound : Sound query state) {node : Nat}
    {rest : Frontier α} (popped : state.frontier.pop? = some (node, rest)) :
    IsWaiting query state node ∧ node < query.graph.size := by
  have waits := (sound.waits_iff node).mp (Frontier.pop?_eq_some popped).1
  exact ⟨waits, lt_of_waits sound wellFormed inside waits.1⟩

/-- Marking the node that came out changes nothing that its label says. -/
theorem Sound.mark {state next : State α} (sound : Sound query state) {node : Nat}
    {rest : Frontier α} (popped : state.frontier.pop? = some (node, rest))
    {marked : Label α} (frontier : next.frontier = rest)
    (valid : next.labels.Valid query.graph.size)
    (get : ∀ other, next.labels.get other =
      if other = node then marked else state.labels.get other)
    (arrival : marked.arrival = (state.labels.get node).arrival)
    (via : marked.via = (state.labels.get node).via)
    (dealt : marked.settled = true ∨ marked.pruned = true) : Sound query next := by
  rcases sound.popped_found wellFormed inside popped with ⟨waits, -⟩
  have same (other : Nat) : (next.labels.get other).arrival = (state.labels.get other).arrival ∧
      (next.labels.get other).via = (state.labels.get other).via := by
    rw [get]
    split_ifs with equal
    · rw [equal]
      exact ⟨arrival, via⟩
    · exact ⟨rfl, rfl⟩
  have found (other : Nat) : IsFound query next other ↔ IsFound query state other := by
    rw [IsFound, IsFound, (same other).2]
  refine ⟨queued_of_pop? sound.toQueued popped frontier valid
    (fun other apart => by rw [get, if_neg apart]) (by rwa [get, if_pos rfl]), ?_, ?_⟩
  · intro other unfound
    have wasUnfound := (found other).not.mp unfound
    have apart : other ≠ node := fun equal => wasUnfound (equal.symm ▸ waits.1)
    rw [get, if_neg apart]
    exact sound.unknown other wasUnfound
  · intro other isFound
    rw [(same other).1]
    exact sound.realised other ((found other).mp isFound)

protected theorem Sound.prune {state : State α} (sound : Sound query state) {node : Nat}
    {rest : Frontier α} (popped : state.frontier.pop? = some (node, rest)) :
    Sound query (prune node rest state) :=
  sound.mark wellFormed inside popped rfl (sound.valid.prune node)
    (get_prune sound.valid (sound.popped_found wellFormed inside popped).2 rest) rfl rfl (.inr rfl)

protected theorem Sound.close {state : State α} (sound : Sound query state) {node : Nat}
    {rest : Frontier α} (popped : state.frontier.pop? = some (node, rest)) :
    Sound query (close query node rest state) :=
  sound.mark wellFormed inside popped rfl (sound.valid.settle node)
    (get_close query sound.valid (sound.popped_found wellFormed inside popped).2 rest) rfl rfl
    (.inl rfl)

protected theorem Sound.expand {state : State α} (sound : Sound query state) {node : Nat}
    {rest : Frontier α} (popped : state.frontier.pop? = some (node, rest)) :
    Sound query (expand query node rest state) := by
  rcases sound.popped_found wellFormed inside popped with ⟨waits, nodeInside⟩
  have closed := sound.close wellFormed inside popped
  have targets : ∀ link ∈ query.graph.linksAt .outgoing node,
      link.destination < query.graph.size := fun link member =>
    wellFormed.destination_lt link ((wellFormed.mem_linksAt nodeInside).mp member).1
  have labels := get_expand_cases wellFormed sound.valid nodeInside rest
  refine ⟨queued_foldl_relax _ targets closed.toQueued, ?_, ?_⟩
  · intro other unfound
    rcases labels other with same | ⟨-, offered⟩
    · rw [same]
      refine closed.unknown other fun wasFound => unfound ?_
      rw [IsFound, same]
      exact wasFound
    · rcases (mem_offersFrom wellFormed nodeInside).mp offered with ⟨link, -, -, -, -, offer⟩
      exact absurd (.inr (by rw [← offer]; rfl)) unfound
  · intro other found
    rcases labels other with same | ⟨-, offered⟩
    · rw [same]
      rw [IsFound, same] at found
      exact closed.realised other found
    · rcases (mem_offersFrom wellFormed nodeInside).mp offered with
        ⟨link, member, leaves, rfl, usable, offer⟩
      rcases sound.realised node waits.1 with ⟨links, journey⟩
      rw [← offer]
      have finite := (Bool.and_eq_true_iff.mp usable).2
      exact ⟨links ++ [link], journey.go member leaves finite⟩

/-- Every step keeps what holds of all states. -/
theorem Sound.step {state next : State α} (sound : Sound query state)
    (step : Step query state next) : Sound query next := by
  cases step with
  | prune popped _ => exact sound.prune wellFormed inside popped
  | expand popped _ _ => exact sound.expand wellFormed inside popped

theorem Sound.ends {state last : State α} (sound : Sound query state)
    (ends : Ends query state last) : Sound query last := by
  cases ends with
  | exhausted _ => exact sound
  | arrived popped _ _ => exact sound.close wellFormed inside popped

theorem run_sound {scratch : Scratch α} (blank : Blank query.graph.size scratch)
    {final : State α} (ran : run query scratch = .ok final) : Sound query final :=
  run_keeps (Sound query) (Sound.step wellFormed inside) (Sound.ends wellFormed inside) ran
    (sound_initial blank inside)

end Search

end JourneyTimes
