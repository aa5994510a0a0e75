import JourneyTimes.Proofs.Scalar.Sorted
import JourneyTimes.Proofs.Search.Forest

/-!
# Nodes are settled in order

A search without a goal settles every node at most once, its source first, and in the order
of their costs if no link has a negative cost.  Links that cost nothing can break ties
between nodes of equal cost the wrong way: a node that such a link leads to is settled after
the one it leads from, whatever their numbers.  Where every link raises the cost, all
nodes of one cost wait by the time the first of them is settled, and so they are settled in
the order of their numbers.

Both orders have one proof.  An order that the frontier respects, and that no link goes
against, holds between the nodes that are settled and those that wait.
-/

namespace JourneyTimes

variable {α : Type} [Scalar α]

/-- Every link that a journey from a node can take raises its cost, unless that is infinite
already. -/
def CostModel.RaisesFrom (cost : CostModel α) (graph : Graph α) (source : Nat) (start : α) :
    Prop :=
  ∀ links node here, Journey graph cost source (Arrival.departure start) links node here →
    here.cost < Scalar.infinity → ∀ link ∈ graph.links, link.origin = node →
      Scalar.isFinite (cost.travelTime link here.time) = true →
        here.cost < here.cost + cost.disutility link here.time

namespace Search

open Frontier (Entry)
open Scalar (Accumulates Sorted)

variable {query : Query α}

/-- A node with its cost. -/
def State.entry (state : State α) (node : Nat) : Entry α := ⟨(state.labels.get node).cost, node⟩

/-- An order that nodes can be settled in: the frontier respects it, and what a link offers
comes after the node that offers it. -/
structure Query.Respects (query : Query α) (Before : Entry α → Entry α → Prop) : Prop where
  trans : ∀ {first second third}, Before first second → Before second third →
    Before first third
  of_noLater : ∀ {first second : Entry α}, first.NoLater second → Before first second
  of_link : ∀ {links node here}, Journey query.graph query.cost query.source
      (Arrival.departure query.start) links node here → here.cost < Scalar.infinity →
    ∀ link ∈ query.graph.links, link.origin = node →
      Scalar.isFinite (query.cost.travelTime link here.time) = true →
        Before ⟨here.cost, node⟩ ⟨(here.along query.cost link).cost, link.destination⟩

/-- What holds of the states of a search that settles nodes in order. -/
structure Settling (query : Query α) (Before : Entry α → Entry α → Prop) (state : State α) :
    Prop extends Rooted query state where
  level : ∀ entry ∈ state.frontier.entries,
    entry.key ≤ (state.labels.get entry.node).cost ∧
      (state.labels.get entry.node).cost ≤ entry.key
  bounded : ∀ node, IsFound query state node → (state.labels.get node).cost < Scalar.infinity
  ahead : ∀ done waiting, (state.labels.get done).settled = true →
    IsWaiting query state waiting → Before (state.entry done) (state.entry waiting)
  sorted : state.settled.toList.Pairwise fun first second =>
    Before (state.entry first) (state.entry second)

/-- What is asked of a search that settles nodes in order: it has no goal, so that keys are
costs. -/
structure Query.IsOpen (query : Query α) : Prop extends query.IsWellPosed where
  noGoal : query.goal = none
  noPotential : ∀ node, query.potential node = 0

namespace Settling

variable [Sorted α] {Before : Entry α → Entry α → Prop} {state : State α}

theorem cost_nonneg (isOpen : query.IsOpen) (sound : Sound query state) {node : Nat}
    (found : IsFound query state node) : 0 ≤ (state.labels.get node).cost := by
  rcases sound.realised node found with ⟨links, journey⟩
  exact journey.cost_nonneg isOpen.nonneg

protected theorem initial (isOpen : query.IsOpen) {scratch : Scratch α}
    (blank : Blank query.graph.size scratch) :
    Settling query Before (Search.initial query scratch) := by
  have get := get_initial blank isOpen.source_lt
  have unsettled (node : Nat) :
      ((Search.initial query scratch).labels.get node).settled = false := by
    rw [get]
    split_ifs <;> rfl
  refine ⟨.initial blank isOpen.source_lt, ?level, ?bounded, ?ahead, ?sorted⟩
  case sorted =>
    rw [settled_initial blank]
    exact .nil
  case level =>
    intro entry member
    rw [entries_initial blank] at member
    obtain rfl := List.mem_singleton.mp member
    rw [get, if_pos rfl, isOpen.noPotential]
    exact ⟨Accumulates.zero_le_zero, Accumulates.zero_le_zero⟩
  case bounded =>
    intro node found
    rw [IsFound, get] at found
    rw [get]
    split_ifs at found ⊢ with isSource
    · exact Sorted.zero_lt_infinity
    · rcases found with same | via
      · exact absurd same isSource
      · cases via
  case ahead =>
    intro done waiting settled
    rw [unsettled] at settled
    cases settled

section Step

variable (settling : Settling query Before state) {node : Nat} {rest : Frontier α}
  (popped : state.frontier.pop? = some (node, rest))

include settling popped

/-- The node that comes out comes no later than any that waits. -/
theorem popped_noLater {other : Nat} (waits : IsWaiting query state other) :
    (state.entry node).NoLater (state.entry other) := by
  rcases Sorted.ranked (α := α) with ⟨β, _, ⟨ranking⟩⟩
  have defined : Frontier.HasDefinedKeys state.frontier.entries := fun entry member =>
    Accumulates.le_trans (settling.level entry member).1 (settling.level entry member).2
  rcases Frontier.pop?_noLater ranking popped defined with ⟨first, firstMember, rfl, least⟩
  rcases Frontier.mem_nodes.mp ((settling.waits_iff other).mpr waits) with ⟨entry, member, rfl⟩
  have before : (state.entry first.node).NoLater first :=
    .inr ⟨(settling.level first firstMember).2, (settling.level first firstMember).1, le_rfl⟩
  have after : entry.NoLater (state.entry entry.node) :=
    .inr ⟨(settling.level entry member).1, (settling.level entry member).2, le_rfl⟩
  exact (before.trans ranking (least entry member)).trans ranking after

variable (isOpen : query.IsOpen)

include isOpen

omit [Sorted α] in
protected theorem prune : Settling query Before (Search.prune node rest state) := by
  have nodeInside := (settling.popped_found isOpen.wellFormed isOpen.source_lt popped).2
  have rooted := settling.toRooted.prune isOpen.wellFormed isOpen.source_lt popped
  have same := sameWays_prune settling.valid nodeInside rest
  have cost (other : Nat) := Label.cost_congr (same other).1
  have entry (other : Nat) : (Search.prune node rest state).entry other = state.entry other := by
    rw [State.entry, cost]
    rfl
  refine ⟨rooted, ?level, ?bounded, ?ahead, ?sorted⟩
  case level =>
    intro other member
    rw [cost]
    exact settling.level other ((Frontier.mem_entries_of_pop? popped).mp member).1
  case bounded =>
    intro other found
    rw [cost]
    exact settling.bounded other ((same.found_iff other).mp found)
  case ahead =>
    intro done waiting settled waits
    rw [get_prune_settled settling.valid nodeInside] at settled
    rw [entry, entry]
    refine settling.ahead done waiting settled ((settling.waits_iff waiting).mp ?_)
    exact ((Frontier.mem_nodes_of_pop? popped).mp ((rooted.waits_iff waiting).mpr waits)).1
  case sorted =>
    simp only [entry]
    exact settling.sorted

omit [Sorted α] in
/-- The nodes that have been settled come before the one that comes out. -/
theorem sorted_close :
    (Search.close query node rest state).settled.toList.Pairwise fun first second =>
      Before (state.entry first) (state.entry second) := by
  have waits := (settling.popped_found isOpen.wellFormed isOpen.source_lt popped).1
  have record : (Search.close query node rest state).settled.toList =
      state.settled.toList ++ [node] := by
    simp [Search.close, settle, isOpen.noGoal]
  rw [record, List.pairwise_append]
  refine ⟨settling.sorted, List.pairwise_singleton _ _, fun first member last isLast => ?_⟩
  rw [List.mem_singleton.mp isLast]
  exact settling.ahead first node ((settling.mem_iff first).mp member) waits

omit popped in
/-- What a node that is settled offers costs no less than nothing. -/
theorem offer_nonneg (found : IsFound query state node) {link : Graph.Link α}
    (member : link ∈ query.graph.links) (leaves : link.origin = node)
    (usable : query.uses (state.labels.get node) link = true) :
    0 ≤ (query.offer (state.labels.get node) link).cost := by
  rcases settling.realised node found with ⟨links, journey⟩
  have nonneg := journey.cost_nonneg isOpen.nonneg
  have finite := (Bool.and_eq_true_iff.mp usable).2
  exact Accumulates.le_trans nonneg
    (Accumulates.le_add nonneg (isOpen.nonneg _ _ _ journey link member leaves finite))

theorem level_expand :
    ∀ entry ∈ (Search.expand query node rest state).frontier.entries,
      entry.key ≤ ((Search.expand query node rest state).labels.get entry.node).cost ∧
        ((Search.expand query node rest state).labels.get entry.node).cost ≤ entry.key := by
  rcases settling.popped_found isOpen.wellFormed isOpen.source_lt popped with ⟨waits, nodeInside⟩
  have leaving {link : Graph.Link α} (here : link ∈ query.graph.linksAt .outgoing node) :=
    (isOpen.wellFormed.mem_linksAt nodeInside).mp here
  refine entries_foldl_relax (fun entry cost => entry.key ≤ cost ∧ cost ≤ entry.key) _
    (fun link here => isOpen.wellFormed.destination_lt link (leaving here).1) ?_
    (settling.valid.settle _) ?_
  · intro link here usable
    have nonneg := settling.offer_nonneg isOpen waits.1 (leaving here).1 (leaving here).2 usable
    rw [isOpen.noPotential]
    exact ⟨Sorted.add_zero_le nonneg, Accumulates.le_add nonneg Accumulates.zero_le_zero⟩
  · intro entry member
    have cost : ((close query node rest state).labels.get entry.node).cost =
        (state.labels.get entry.node).cost :=
      Label.cost_congr (get_close_arrival query settling.valid nodeInside rest entry.node).1
    rw [cost]
    exact settling.level entry ((Frontier.mem_entries_of_pop? popped).mp member).1

theorem bounded_expand (other : Nat)
    (found : IsFound query (Search.expand query node rest state) other) :
    ((Search.expand query node rest state).labels.get other).cost < Scalar.infinity := by
  have nodeInside := (settling.popped_found isOpen.wellFormed isOpen.source_lt popped).2
  rcases get_close_arrival query settling.valid nodeInside rest other with ⟨arrival, via⟩
  have cost := Label.cost_congr arrival
  rcases get_expand_improves isOpen.wellFormed settling.valid nodeInside rest other with
    same | ⟨-, less⟩
  · rw [IsFound, same, via] at found
    rw [same, cost]
    exact settling.bounded other found
  · rw [cost] at less
    by_cases known : IsFound query state other
    · exact Accumulates.lt_trans less (settling.bounded other known)
    · rw [settling.unknown other known] at less
      exact less

variable (respects : query.Respects Before)

include respects

omit [Sorted α] in
/-- A node that waits after a step waited before it, or comes after the node that is
settled. -/
theorem waiting_expand {waiting : Nat}
    (waits : IsWaiting query (Search.expand query node rest state) waiting) :
    IsWaiting query state waiting ∧
        (Search.expand query node rest state).entry waiting = state.entry waiting ∨
      Before (state.entry node) ((Search.expand query node rest state).entry waiting) := by
  rcases settling.popped_found isOpen.wellFormed isOpen.source_lt popped with
    ⟨nodeWaits, nodeInside⟩
  rcases get_expand_cases isOpen.wellFormed settling.valid nodeInside rest waiting with
    same | ⟨-, offered⟩
  · have closed := get_close query settling.valid nodeInside rest waiting
    have apart : waiting ≠ node := by
      rintro rfl
      have unsettled := waits.2.1
      rw [same, closed, if_pos rfl] at unsettled
      cases unsettled
    rw [if_neg apart] at closed
    rw [IsWaiting, IsFound, same, closed] at waits
    rw [State.entry, same, closed]
    exact .inl ⟨waits, rfl⟩
  · rcases (mem_offersFrom isOpen.wellFormed nodeInside).mp offered with
      ⟨link, member, leaves, rfl, usable, offer⟩
    rcases settling.realised node nodeWaits.1 with ⟨links, journey⟩
    rw [State.entry, State.entry, ← offer]
    exact .inr (respects.of_link journey (settling.bounded node nodeWaits.1) link member leaves
      (Bool.and_eq_true_iff.mp usable).2)

protected theorem expand (within : isBeyond query node state = false) :
    Settling query Before (Search.expand query node rest state) := by
  rcases settling.popped_found isOpen.wellFormed isOpen.source_lt popped with ⟨waits, nodeInside⟩
  have rooted := settling.toRooted.expand isOpen.wellFormed isOpen.source_lt popped
    isOpen.noGoal within
  have closed := get_close query settling.valid nodeInside rest
  have still := settling.expand_settled isOpen.wellFormed isOpen.source_lt popped isOpen.noGoal
  -- Settled nodes keep their costs.
  have entry {done : Nat}
      (settled : ((Search.expand query node rest state).labels.get done).settled = true) :
      (Search.expand query node rest state).entry done = state.entry done := by
    rw [State.entry, (still done).2 ((still done).1.mp settled),
      Label.cost_congr (get_close_arrival query settling.valid nodeInside rest done).1]
    rfl
  refine ⟨rooted, settling.level_expand popped isOpen, settling.bounded_expand popped isOpen,
    ?ahead, ?sorted⟩
  case ahead =>
    intro done waiting settled waitsNext
    rw [entry settled]
    have was : done = node ∨ (state.labels.get done).settled = true := by
      have old := (still done).1.mp settled
      rw [closed] at old
      split_ifs at old with equal
      · exact .inl equal
      · exact .inr old
    rcases settling.waiting_expand popped isOpen respects waitsNext with ⟨waited, same⟩ | after
    · rw [same]
      rcases was with rfl | old
      · exact respects.of_noLater (settling.popped_noLater popped waited)
      · exact settling.ahead done waiting old waited
    · rcases was with rfl | old
      · exact after
      · exact respects.trans (settling.ahead done node old waits) after
  case sorted =>
    have record : (Search.expand query node rest state).settled =
        (Search.close query node rest state).settled := (foldl_relax_settled query _ _ _).1
    have before := settling.sorted_close popped isOpen
    rw [record]
    refine before.imp_of_mem fun {first second} firstMember secondMember ordered => ?_
    rw [← record] at firstMember secondMember
    rw [entry ((rooted.mem_iff first).mp firstMember),
      entry ((rooted.mem_iff second).mp secondMember)]
    exact ordered

end Step

end Settling

/-- A search without a goal settles nodes in every order that the frontier respects and that
no link goes against. -/
theorem run_settling [Sorted α] (isOpen : query.IsOpen) {Before : Entry α → Entry α → Prop}
    (respects : query.Respects Before) {scratch : Scratch α}
    (blank : Blank query.graph.size scratch)
    {final : State α} (ran : run query scratch = .ok final) :
    final.settled.toList.Pairwise fun first second =>
      Before (final.entry first) (final.entry second) := by
  rcases ends_of_run ran with ⟨last, reaches, ends⟩
  have settling : Settling query Before last := by
    refine reaches.keeps (Settling query Before) (fun settling step => ?_) (.initial isOpen blank)
    cases step with
    | prune popped _ => exact settling.prune popped isOpen
    | expand popped within _ => exact settling.expand popped isOpen respects within
  cases ends with
  | exhausted _ => exact settling.sorted
  | @arrived node rest popped _ _ =>
      have nodeInside := (settling.popped_found isOpen.wellFormed isOpen.source_lt popped).2
      have entry (other : Nat) : (close query node rest last).entry other = last.entry other := by
        rw [State.entry,
          Label.cost_congr (get_close_arrival query settling.valid nodeInside rest other).1]
        rfl
      simp only [entry]
      exact settling.sorted_close popped isOpen

/-! ## Two orders -/

/-- Where no link has a negative cost, the order of costs is respected. -/
theorem Query.IsOpen.respects_le [Sorted α] (isOpen : query.IsOpen) :
    query.Respects fun first second => first.key ≤ second.key where
  trans := Accumulates.le_trans
  of_noLater := by
    rintro first second (less | ⟨atMost, -⟩)
    · exact Accumulates.le_of_lt less
    · exact atMost
  of_link := by
    intro links node here journey _ link member leaves usable
    exact Accumulates.le_add (journey.cost_nonneg isOpen.nonneg)
      (isOpen.nonneg links node here journey link member leaves usable)

/-- Where every link raises the cost, so is the order in which nodes come out. -/
theorem Query.respects_noLater [Sorted α]
    (raises : query.cost.RaisesFrom query.graph query.source query.start) :
    query.Respects Entry.NoLater where
  trans := by
    intro first second third before after
    rcases Sorted.ranked (α := α) with ⟨β, _, ⟨ranking⟩⟩
    exact before.trans ranking after
  of_noLater := id
  of_link := by
    intro links node here journey finite link member leaves usable
    exact .inl (raises links node here journey finite link member leaves usable)

/-! ## The first node -/

/-- The source was settled before all other nodes. -/
def Begins (query : Query α) (state : State α) : Prop :=
  ∃ rest, state.settled.toList = query.source :: rest

namespace Begins

variable {state : State α} (noGoal : query.goal = none)

include noGoal

omit [Scalar α] in
protected theorem close (begins : Begins query state) (node : Nat) (rest : Frontier α) :
    Begins query (Search.close query node rest state) := by
  rcases begins with ⟨others, record⟩
  exact ⟨others ++ [node], by simp [Search.close, settle, noGoal, record]⟩

omit noGoal in
protected theorem expand {node : Nat} {rest : Frontier α}
    (begins : Begins query (Search.close query node rest state)) :
    Begins query (Search.expand query node rest state) := by
  rcases begins with ⟨others, record⟩
  exact ⟨others, by rw [Search.expand, (foldl_relax_settled query _ _ _).1, record]⟩

protected theorem step {next : State α} (begins : Begins query state)
    (step : Step query state next) : Begins query next := by
  cases step with
  | prune _ _ => exact begins
  | expand _ _ _ => exact (begins.close noGoal _ _).expand

protected theorem ends {last : State α} (begins : Begins query state)
    (ends : Ends query state last) : Begins query last := by
  cases ends with
  | exhausted _ => exact begins
  | arrived _ _ _ => exact begins.close noGoal _ _

end Begins

/-- A search that is not to prune its source settles it first. -/
theorem run_begins (inside : query.source < query.graph.size)
    (noGoal : query.goal = none) {scratch : Scratch α}
    (blank : Blank query.graph.size scratch)
    {final : State α} (ran : run query scratch = .ok final)
    (within : query.bounds.prunes (query.start - query.start) 0 = false) :
    Begins query final := by
  have isSource {node : Nat} {rest : Frontier α}
      (popped : (initial query scratch).frontier.pop? = some (node, rest)) :
      node = query.source := by
    have member := (Frontier.pop?_eq_some popped).1
    rwa [Frontier.nodes, entries_initial blank, List.map_singleton, List.mem_singleton] at member
  have kept : isBeyond query query.source (initial query scratch) = false := by
    rw [isBeyond, get_initial blank inside, if_pos rfl]
    exact within
  have first (rest : Frontier α) :
      Begins query (close query query.source rest (initial query scratch)) :=
    ⟨[], by simp [close, settle, noGoal, initial, blank.settled_eq]⟩
  rcases ends_of_run ran with ⟨last, reaches, ends⟩
  -- Whatever comes first, it settles the source, and the record only grows.
  rcases reaches.cases_head with rfl | ⟨next, step, later⟩
  · cases ends with
    | exhausted popped =>
        have none := Frontier.pop?_eq_none_iff.mp popped
        rw [Frontier.nodes, entries_initial blank] at none
        cases none
    | arrived popped _ _ =>
        rw [isSource popped]
        exact first _
  · have begun : Begins query next := by
      cases step with
      | prune popped beyond =>
          rw [isSource popped, kept] at beyond
          cases beyond
      | expand popped _ _ =>
          rw [isSource popped]
          exact (first _).expand
    exact Begins.ends noGoal (Reaches.keeps (Begins query) (Begins.step noGoal) later begun) ends

end Search

end JourneyTimes
