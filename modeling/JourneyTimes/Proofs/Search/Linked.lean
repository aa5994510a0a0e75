import JourneyTimes.Proofs.Search.Answer
import Mathlib.Logic.Relation

/-!
# Chains of last links

The label of a node names the last link of the way that it stands for, and so do the
labels of the nodes before it.  The labels further back may have been improved since, and
then the chain of these links is another way than the one which the label was found for.

There is no more than one chain to a node.  A node on it has a shorter chain, so a chain
comes to no node twice and the links that labels name make no cycle.
-/

namespace JourneyTimes

variable {α : Type}

/-- Links of a graph are told apart by their numbers. -/
theorem Graph.WellFormed.eq_of_index {graph : Graph α} (wellFormed : graph.WellFormed)
    {link other : Graph.Link α} (member : link ∈ graph.links)
    (otherMember : other ∈ graph.links) (same : link.index = other.index) : link = other := by
  have found := wellFormed.getElem?_index member
  rw [same, wellFormed.getElem?_index otherMember] at found
  exact (Option.some.inj found).symm

namespace Search

/-- Whether the label of a node names a link that comes from another one. -/
def Precedes (graph : Graph α) (label : Nat → Label α) (before after : Nat) : Prop :=
  ∃ link, ((label after).via.bind fun index => graph.links[index]?) = some link ∧
    link.origin = before

/-- Links from the source to a node each of which is named by the label of its end. -/
inductive Linked (query : Query α) (label : Nat → Label α) :
    List (Graph.Link α) → Nat → Prop where
  | stay : Linked query label [] query.source
  | go {links : List (Graph.Link α)} {link : Graph.Link α}
      (before : Linked query label links link.origin) (member : link ∈ query.graph.links)
      (named : (label link.destination).via = some link.index) :
      Linked query label (links ++ [link]) link.destination

namespace Linked

variable {query : Query α} {label : Nat → Label α} {links : List (Graph.Link α)} {node : Nat}

/-- Every node on a chain has a chain that is no longer. -/
theorem upto (linked : Linked query label links node) {visited : Nat}
    (passed : visited ∈ query.source :: links.map (·.destination)) :
    ∃ first, Linked query label first visited ∧ first.length ≤ links.length := by
  induction linked with
  | stay =>
      obtain rfl : visited = query.source := by simpa using passed
      exact ⟨[], .stay, le_rfl⟩
  | @go links link before member named ih =>
      rw [List.map_append, ← List.cons_append, List.mem_append] at passed
      rcases passed with earlier | last
      · rcases ih earlier with ⟨first, upto, short⟩
        exact ⟨first, upto, short.trans (by simp)⟩
      · obtain rfl : visited = link.destination := by simpa using last
        exact ⟨_, before.go member named, le_rfl⟩

/-- A chain is not broken by labels of nodes that are not on it. -/
theorem congr {other : Nat → Label α} (linked : Linked query label links node)
    (same : ∀ visited ∈ query.source :: links.map (·.destination),
      (other visited).via = (label visited).via) : Linked query other links node := by
  induction linked with
  | stay => exact .stay
  | @go links link before member named ih =>
      apply Linked.go _ member
      · rw [same link.destination (by simp)]
        exact named
      · apply ih
        intro visited passed
        apply same
        rw [List.map_append, ← List.cons_append]
        exact List.mem_append_left _ passed

section WellFormed

variable (wellFormed : query.graph.WellFormed)
  (originVia : (label query.source).via = none)

include wellFormed originVia

/-- There is one chain to a node at most. -/
theorem unique (linked : Linked query label links node) {others : List (Graph.Link α)}
    (another : Linked query label others node) : links = others := by
  induction linked generalizing others with
  | stay =>
      generalize isSource : query.source = node at another
      cases another with
      | stay => rfl
      | go _ _ named =>
          rw [← isSource, originVia] at named
          cases named
  | @go links link before member named ih =>
      generalize same : link.destination = node at another
      cases another with
      | stay =>
          rw [same, originVia] at named
          cases named
      | @go others last sooner lastMember lastNamed =>
          rw [← same, named] at lastNamed
          obtain rfl := wellFormed.eq_of_index member lastMember (Option.some.inj lastNamed)
          rw [ih sooner]

/-- A chain comes to no node twice. -/
theorem once (linked : Linked query label links node) :
    (query.source :: links.map (·.destination)).Nodup := by
  induction linked with
  | stay => exact List.nodup_singleton _
  | @go links link before member named ih =>
      rw [List.map_append, ← List.cons_append, List.nodup_append]
      refine ⟨ih, List.nodup_singleton _, ?_⟩
      rintro visited passed _ last rfl
      obtain rfl : visited = link.destination := by simpa using last
      rcases before.upto passed with ⟨first, again, short⟩
      have whole := unique wellFormed originVia again (before.go member named)
      rw [whole, List.length_append, List.length_singleton] at short
      exact absurd short (Nat.not_succ_le_self _)

/-- The node that precedes the last one of a chain has a shorter chain. -/
theorem precedes (linked : Linked query label links node) {before : Nat}
    (precedes : Precedes query.graph label before node) :
    ∃ first, Linked query label first before ∧ first.length < links.length := by
  rcases precedes with ⟨last, found, rfl⟩
  cases linked with
  | stay =>
      rw [originVia] at found
      cases found
  | @go first link before member named =>
      rw [named, Option.bind_some, wellFormed.getElem?_index member] at found
      obtain rfl : link = last := Option.some.inj found
      exact ⟨first, before, by simp⟩

/-- No node with a chain precedes itself. -/
theorem acyclic (linked : Linked query label links node) :
    ¬ Relation.TransGen (Precedes query.graph label) node node := by
  have shorter {before : Nat}
      (chain : Relation.TransGen (Precedes query.graph label) before node) :
      ∃ first, Linked query label first before ∧ first.length < links.length := by
    induction chain using Relation.TransGen.head_induction_on with
    | single last => exact linked.precedes wellFormed originVia last
    | head step _ ih =>
        rcases ih with ⟨first, upto, short⟩
        rcases upto.precedes wellFormed originVia step with ⟨second, sooner, shorter⟩
        exact ⟨second, sooner, shorter.trans short⟩
  intro cycle
  rcases shorter cycle with ⟨first, again, short⟩
  rw [unique wellFormed originVia again linked] at short
  exact absurd short (Nat.lt_irrefl _)

end WellFormed

end Linked

end Search

namespace PathTree

variable {query : Search.Query α} {final : Search.State α} {tree : PathTree α}

/-- Where no last link is known, a way begins. -/
theorem trace_of_none {node : Nat} (first : tree.lastLink? node = none) :
    tree.trace node = some ([node], []) := by
  rw [trace, followBack, first]

/-- A way to a node leads to the origin of the last link, and on along that link. -/
theorem trace_of_some {node : Nat} {link : Graph.Link α} (last : tree.lastLink? node = some link) :
    tree.trace node =
      (tree.trace link.origin).map fun way => (way.1 ++ [node], way.2 ++ [link.index]) := by
  rw [trace, followBack, last, trace]
  show (followBack tree.lastLink? link.origin >>=
    fun way => pure (way.1 ++ [node], way.2 ++ [link.index])) = _
  cases followBack tree.lastLink? link.origin <;> rfl

/-- Where last links go round in a circle, following them back never ends. -/
theorem trace_eq_none_of_cycle {node : Nat}
    (cycle : Relation.TransGen (Search.Precedes tree.graph tree.label) node node) :
    tree.trace node = none := by
  have shorter {before after : Nat}
      (chain : Relation.TransGen (Search.Precedes tree.graph tree.label) before after)
      {way : List Nat × List Nat} (traced : tree.trace after = some way) :
      ∃ first, tree.trace before = some first ∧ first.2.length < way.2.length := by
    induction chain generalizing way with
    | single last =>
        rcases last with ⟨link, named, rfl⟩
        rw [trace_of_some named] at traced
        rcases Option.map_eq_some_iff.mp traced with ⟨first, found, rfl⟩
        exact ⟨first, found, by simp⟩
    | tail _ last ih =>
        rcases last with ⟨link, named, rfl⟩
        rw [trace_of_some named] at traced
        rcases Option.map_eq_some_iff.mp traced with ⟨middle, found, rfl⟩
        rcases ih found with ⟨first, begins, shorter⟩
        exact ⟨first, begins, by simpa using shorter.trans (Nat.lt_succ_self _)⟩
  cases traced : tree.trace node with
  | none => rfl
  | some way =>
      rcases shorter cycle traced with ⟨first, again, less⟩
      rw [traced] at again
      cases again
      exact absurd less (Nat.lt_irrefl _)

/-- Following last links back finds the chain to a node. -/
theorem Answers.trace_eq_of_linked (answers : Answers query final tree)
    (wellFormed : query.graph.WellFormed)
    (originVia : (final.labels.get query.source).via = none) {links : List (Graph.Link α)}
    {node : Nat} (linked : Search.Linked query final.labels.get links node) :
    tree.trace node =
      some (query.source :: links.map (·.destination), links.map (·.index)) := by
  induction linked with
  | stay =>
      apply trace_of_none
      rw [lastLink?, answers.label_eq, originVia]
      rfl
  | @go links link _ member named ih =>
      have last : tree.lastLink? link.destination = some link := by
        rw [lastLink?, answers.label_eq, answers.graph_eq, named]
        exact wellFormed.getElem?_index member
      rw [trace_of_some last, ih]
      simp

end PathTree

end JourneyTimes
