import JourneyTimes.Proofs.Search.Once

/-!
# Settled nodes hang together

This holds for any costs at all, and under any bounds.  A search without a goal settles
its source first.  Every other node that it finds has the label which a link offers from
a settled node, and that node was settled earlier if the other one is settled too.
Neither of the two labels changes after that, and so the links that labels name lead
from every settled node back to the source.
-/

namespace JourneyTimes.Search

variable {α : Type} [Scalar α] {query : Query α}

/-! ## Labels that come from others -/

/-- The label at the end of a link is what the link offers from the label at its
origin. -/
structure Comes (query : Query α) (label : Nat → Label α) (link : Graph.Link α) : Prop where
  member : link ∈ query.graph.links
  usable : Scalar.isFinite (query.cost.travelTime link (label link.origin).time) = true
  via_eq : (label link.destination).via = some link.index
  arrival_eq : (label link.destination).arrival =
    (label link.origin).arrival.along query.cost link

/-- The label of a node comes from that of one of some others. -/
def ComesFrom (query : Query α) (label : Nat → Label α) (origins : Nat → Prop)
    (node : Nat) : Prop :=
  ∃ link, Comes query label link ∧ link.destination = node ∧ origins link.origin

/-- Where a label comes from depends on the ways to the two nodes only. -/
theorem ComesFrom.congr {label other : Nat → Label α} {origins others : Nat → Prop}
    {node : Nat} (comes : ComesFrom query label origins node)
    (still : ∀ origin, origins origin → others origin)
    (origin_eq : ∀ origin, origins origin → (other origin).arrival = (label origin).arrival)
    (arrival_eq : (other node).arrival = (label node).arrival)
    (via_eq : (other node).via = (label node).via) : ComesFrom query other others node := by
  rcases comes with ⟨link, ⟨member, usable, named, arrives⟩, rfl, origin⟩
  have same := origin_eq link.origin origin
  refine ⟨link, ⟨member, ?_, via_eq.trans named, ?_⟩, rfl, still _ origin⟩
  · rw [Label.time_congr same]
    exact usable
  · rw [arrival_eq, same]
    exact arrives

theorem ComesFrom.mono {label : Nat → Label α} {origins others : Nat → Prop} {node : Nat}
    (comes : ComesFrom query label origins node)
    (still : ∀ origin, origins origin → others origin) : ComesFrom query label others node :=
  comes.congr still (fun _ _ => rfl) rfl rfl

/-- A label still comes from where it came from if all labels concerned stay the same. -/
theorem ComesFrom.of_eq {label other : Nat → Label α} {origins : Nat → Prop} {node : Nat}
    (comes : ComesFrom query label origins node)
    (origin_eq : ∀ origin, origins origin → other origin = label origin)
    (node_eq : other node = label node) : ComesFrom query other origins node :=
  comes.congr (fun _ known => known)
    (fun origin known => congrArg Label.arrival (origin_eq origin known))
    (congrArg Label.arrival node_eq) (congrArg Label.via node_eq)

/-- A label that a node offers comes from it. -/
theorem comesFrom_of_offered (wellFormed : query.graph.WellFormed) {node other : Nat}
    (inside : node < query.graph.size) {here : Label α} {label : Nat → Label α}
    (same : (label node).arrival = here.arrival)
    (offered : label other ∈ query.offersFrom here node other) :
    ComesFrom query label (· = node) other := by
  rcases (mem_offersFrom wellFormed inside).mp offered with ⟨link, member, rfl, rfl, usable, offer⟩
  refine ⟨link, ⟨member, ?_, ?_, ?_⟩, rfl, rfl⟩
  · rw [Label.time_congr same]
    exact (Bool.and_eq_true_iff.mp usable).2
  · rw [← offer]
    rfl
  · rw [← offer, same]
    rfl

/-- After links have been relaxed, a label comes from where it came from before, or from the
node whose links they are. -/
theorem comesFrom_expand (wellFormed : query.graph.WellFormed) {state : State α}
    (valid : state.labels.Valid query.graph.size) {node other : Nat}
    (inside : node < query.graph.size) {rest : Frontier α} {origins : Nat → Prop}
    (still : ∀ origin, origins origin →
      (expand query node rest state).labels.get origin =
        (close query node rest state).labels.get origin)
    (relaxed : (expand query node rest state).labels.get other =
        (close query node rest state).labels.get other ∨
      (expand query node rest state).labels.get other ∈
        query.offersFrom (state.labels.get node) node other ∧ origins node)
    (comes : IsFound query (close query node rest state) other →
      ComesFrom query (close query node rest state).labels.get origins other)
    (found : IsFound query (expand query node rest state) other) :
    ComesFrom query (expand query node rest state).labels.get origins other := by
  rcases relaxed with same | ⟨offered, isOrigin⟩
  · rw [IsFound, same] at found
    exact (comes found).of_eq still same
  · have here : ((expand query node rest state).labels.get node).arrival =
        (state.labels.get node).arrival := by
      rw [still node isOrigin]
      exact (get_close_arrival query valid inside rest node).1
    refine (comesFrom_of_offered wellFormed inside here offered).mono ?_
    rintro origin rfl
    exact isOrigin

/-- All labels say the same about the ways to their nodes. -/
def SameWays (state next : State α) : Prop :=
  ∀ node, (next.labels.get node).arrival = (state.labels.get node).arrival ∧
    (next.labels.get node).via = (state.labels.get node).via

namespace SameWays

variable {state next : State α} (same : SameWays state next)

include same

omit [Scalar α] in
theorem found_iff (node : Nat) : IsFound query next node ↔ IsFound query state node := by
  rw [IsFound, IsFound, (same node).2]

theorem comesFrom {origins others : Nat → Prop} {node : Nat}
    (still : ∀ origin, origins origin → others origin)
    (comes : ComesFrom query state.labels.get origins node) :
    ComesFrom query next.labels.get others node :=
  comes.congr still (fun origin _ => (same origin).1) (same node).1 (same node).2

end SameWays

theorem sameWays_prune {state : State α} (valid : state.labels.Valid query.graph.size)
    {node : Nat} (inside : node < query.graph.size) (rest : Frontier α) :
    SameWays state (prune node rest state) := by
  intro other
  rw [get_prune valid inside]
  split_ifs with equal
  · rw [equal]
    exact ⟨rfl, rfl⟩
  · exact ⟨rfl, rfl⟩

/-! ## Rooted states -/

/-- What holds of every state of a search without a goal. -/
structure Rooted (query : Query α) (state : State α) : Prop extends Sound query state where
  distinct : state.settled.toList.Nodup
  mem_iff : ∀ node, node ∈ state.settled.toList ↔ (state.labels.get node).settled = true
  unpruned : ∀ node, (state.labels.get node).settled = true →
    (state.labels.get node).pruned = false
  within : ∀ node, (state.labels.get node).settled = true → isBeyond query node state = false
  origin_arrival : (state.labels.get query.source).arrival = Arrival.departure query.start
  origin_via : (state.labels.get query.source).via = none
  first : ∀ node, node ≠ query.source → IsFound query state node →
    query.isFinal (state.labels.get query.source) = true
  comes : ∀ node, node ≠ query.source → IsFound query state node →
    ComesFrom query state.labels.get (fun origin => (state.labels.get origin).settled = true) node
  earlier : ∀ before node after, state.settled.toList = before ++ node :: after →
    node ≠ query.source → ComesFrom query state.labels.get (· ∈ before) node

namespace Rooted

protected theorem initial {scratch : Scratch α} (blank : Blank query.graph.size scratch)
    (inside : query.source < query.graph.size) : Rooted query (Search.initial query scratch) := by
  have get := get_initial blank inside
  have unsettled (node : Nat) :
      ((Search.initial query scratch).labels.get node).settled = false := by
    rw [get]
    split_ifs <;> rfl
  have unfound {node : Nat} (apart : node ≠ query.source) :
      ¬ IsFound query (Search.initial query scratch) node := by
    rw [IsFound, get, if_neg apart]
    simp [apart, Label.unknown]
  constructor
  case toSound => exact sound_initial blank inside
  case distinct =>
    rw [settled_initial blank]
    exact .nil
  case mem_iff =>
    intro node
    rw [unsettled]
    simp [settled_initial blank]
  case unpruned =>
    intro node settled
    rw [unsettled] at settled
    cases settled
  case within =>
    intro node settled
    rw [unsettled] at settled
    cases settled
  case origin_arrival =>
    rw [get, if_pos rfl]
    rfl
  case origin_via =>
    rw [get, if_pos rfl]
    rfl
  case first =>
    intro node apart found
    exact absurd found (unfound apart)
  case comes =>
    intro node apart found
    exact absurd found (unfound apart)
  case earlier =>
    intro before node after split
    simp [settled_initial blank] at split

variable (wellFormed : query.graph.WellFormed) (inside : query.source < query.graph.size)
  {state : State α} (rooted : Rooted query state) {node : Nat} {rest : Frontier α}
  (popped : state.frontier.pop? = some (node, rest))

include wellFormed inside rooted popped

protected theorem prune : Rooted query (Search.prune node rest state) := by
  rcases rooted.popped_found wellFormed inside popped with ⟨waits, nodeInside⟩
  have get := get_prune rooted.valid nodeInside rest
  have same := sameWays_prune rooted.valid nodeInside rest
  have settledSame := get_prune_settled rooted.valid nodeInside rest
  constructor
  case toSound => exact rooted.toSound.prune wellFormed inside popped
  case distinct => exact rooted.distinct
  case mem_iff =>
    intro other
    rw [settledSame]
    exact rooted.mem_iff other
  case unpruned =>
    intro other settled
    rw [settledSame] at settled
    have apart : other ≠ node := by
      rintro rfl
      exact waits.not_settled settled
    rw [get, if_neg apart]
    exact rooted.unpruned other settled
  case within =>
    intro other settled
    rw [settledSame] at settled
    rw [isBeyond_congr query (same other).1]
    exact rooted.within other settled
  case origin_arrival =>
    rw [(same query.source).1]
    exact rooted.origin_arrival
  case origin_via =>
    rw [(same query.source).2]
    exact rooted.origin_via
  case first =>
    intro other apart found
    have final := rooted.first other apart ((same.found_iff other).mp found)
    rw [get]
    split_ifs with equal
    · rfl
    · exact final
  case comes =>
    intro other apart found
    refine same.comesFrom ?_ (rooted.comes other apart ((same.found_iff other).mp found))
    intro origin settled
    rwa [settledSame]
  case earlier =>
    intro before other after split apart
    exact same.comesFrom (fun _ known => known) (rooted.earlier before other after split apart)

variable (noGoal : query.goal = none) (within : isBeyond query node state = false)

include noGoal within

protected theorem close : Rooted query (Search.close query node rest state) := by
  rcases rooted.popped_found wellFormed inside popped with ⟨waits, nodeInside⟩
  have same : SameWays state (Search.close query node rest state) :=
    get_close_arrival query rooted.valid nodeInside rest
  have settledEq : (Search.close query node rest state).settled.toList =
      state.settled.toList ++ [node] := by
    simp [Search.close, settle, noGoal]
  have settledIff := get_close_settled query rooted.valid nodeInside rest
  constructor
  case toSound => exact rooted.toSound.close wellFormed inside popped
  case distinct =>
    rw [settledEq]
    exact waits.nodup_append rooted.distinct fun other => (rooted.mem_iff other).mp
  case mem_iff =>
    intro other
    rw [settledEq, settledIff, List.mem_append, rooted.mem_iff, List.mem_singleton, or_comm]
  case unpruned =>
    intro other settled
    rw [get_close_pruned query rooted.valid nodeInside]
    rcases (settledIff other).mp settled with rfl | old
    · exact waits.2.2
    · exact rooted.unpruned other old
  case within =>
    intro other settled
    rw [isBeyond_congr query (same other).1]
    rcases (settledIff other).mp settled with rfl | old
    · exact within
    · exact rooted.within other old
  case origin_arrival =>
    rw [(same query.source).1]
    exact rooted.origin_arrival
  case origin_via =>
    rw [(same query.source).2]
    exact rooted.origin_via
  case first =>
    intro other apart found
    have final := rooted.first other apart ((same.found_iff other).mp found)
    exact (isFinal_get_close noGoal rooted.valid nodeInside rest _).mpr (.inr final)
  case comes =>
    intro other apart found
    refine same.comesFrom ?_ (rooted.comes other apart ((same.found_iff other).mp found))
    exact fun origin settled => (settledIff origin).mpr (.inr settled)
  case earlier =>
    intro before other after split apart
    rw [settledEq] at split
    -- What the last node comes from was settled before it.
    rcases last_or_earlier split with ⟨rfl, rfl⟩ | ⟨init, old⟩
    · refine same.comesFrom ?_ (rooted.comes other apart waits.1)
      exact fun origin settled => (rooted.mem_iff origin).mpr settled
    · exact same.comesFrom (fun _ known => known) (rooted.earlier before other init old apart)

omit within in
/-- The source has been dealt with as soon as any node is settled. -/
theorem isFinal_close :
    query.isFinal ((Search.close query node rest state).labels.get query.source) = true := by
  rcases rooted.popped_found wellFormed inside popped with ⟨waits, nodeInside⟩
  apply (isFinal_get_close noGoal rooted.valid nodeInside rest query.source).mpr
  by_cases equal : query.source = node
  · exact .inl equal
  · exact .inr (rooted.first node (fun same => equal same.symm) waits.1)

omit within in
/-- Relaxing links settles nothing, and leaves the labels of settled nodes. -/
theorem expand_settled (other : Nat) :
    (((Search.expand query node rest state).labels.get other).settled = true ↔
        ((Search.close query node rest state).labels.get other).settled = true) ∧
      (((Search.close query node rest state).labels.get other).settled = true →
        (Search.expand query node rest state).labels.get other =
          (Search.close query node rest state).labels.get other) := by
  have nodeInside := (rooted.popped_found wellFormed inside popped).2
  rcases rooted.expand_marks wellFormed inside noGoal popped other with ⟨settledEq, -⟩
  constructor
  · rw [settledEq, get_close query rooted.valid nodeInside]
    split_ifs with equal <;> simp [equal]
  · intro settled
    rw [get_expand wellFormed rooted.valid nodeInside, if_pos (isFinal_of_settled noGoal settled)]

protected theorem expand : Rooted query (Search.expand query node rest state) := by
  rcases rooted.popped_found wellFormed inside popped with ⟨waits, nodeInside⟩
  have closed := rooted.close wellFormed inside popped noGoal within
  have record : (Search.expand query node rest state).settled =
      (Search.close query node rest state).settled := (foldl_relax_settled query _ _ _).1
  have still (other : Nat) := rooted.expand_settled wellFormed inside popped noGoal other
  have source : (Search.expand query node rest state).labels.get query.source =
      (Search.close query node rest state).labels.get query.source := by
    rw [get_expand wellFormed rooted.valid nodeInside,
      if_pos (rooted.isFinal_close wellFormed inside popped noGoal)]
  constructor
  case toSound => exact rooted.toSound.expand wellFormed inside popped
  case distinct =>
    rw [record]
    exact closed.distinct
  case mem_iff =>
    intro other
    rw [record, (still other).1]
    exact closed.mem_iff other
  case unpruned =>
    intro other settled
    have old := (still other).1.mp settled
    rw [(still other).2 old]
    exact closed.unpruned other old
  case within =>
    intro other settled
    have old := (still other).1.mp settled
    rw [isBeyond_congr query (congrArg Label.arrival ((still other).2 old))]
    exact closed.within other old
  case origin_arrival =>
    rw [source]
    exact closed.origin_arrival
  case origin_via =>
    rw [source]
    exact closed.origin_via
  case first =>
    intro _ _ _
    rw [source]
    exact rooted.isFinal_close wellFormed inside popped noGoal
  case comes =>
    intro other apart found
    have settled := (get_close_settled query rooted.valid nodeInside rest node).mpr (.inl rfl)
    have relaxed := (get_expand_cases wellFormed rooted.valid nodeInside rest other).imp_right
      fun offers => And.intro offers.2 settled
    exact (comesFrom_expand wellFormed rooted.valid nodeInside (fun origin => (still origin).2)
      relaxed (closed.comes other apart) found).mono fun origin => (still origin).1.mpr
  case earlier =>
    intro before other after split apart
    rw [record] at split
    have same (origin : Nat) (known : origin ∈ before ++ other :: after) :=
      (still origin).2 ((closed.mem_iff origin).mp (split ▸ known))
    exact (closed.earlier before other after split apart).of_eq
      (fun origin known => same origin (List.mem_append_left _ known)) (same other (by simp))

end Rooted

/-- A search without a goal ends in a rooted state. -/
theorem run_rooted (wellFormed : query.graph.WellFormed) (inside : query.source < query.graph.size)
    (noGoal : query.goal = none) {scratch : Scratch α}
    (blank : Blank query.graph.size scratch)
    {final : State α} (ran : run query scratch = .ok final) : Rooted query final := by
  refine run_keeps (Rooted query) ?_ ?_ ran (.initial blank inside)
  · intro state next rooted step
    cases step with
    | prune popped _ => exact rooted.prune wellFormed inside popped
    | expand popped within _ => exact rooted.expand wellFormed inside popped noGoal within
  · intro state last rooted ends
    cases ends with
    | exhausted _ => exact rooted
    | arrived popped within _ => exact rooted.close wellFormed inside popped noGoal within

end JourneyTimes.Search
