import JourneyTimes.Cost.Model
import JourneyTimes.Proofs.Graph.WellFormed
import Mathlib.Data.List.Induction
import Mathlib.Data.List.Perm.Subperm

/-!
# Journeys

A journey follows links from node to node, and enters each of them at the time
at which it arrives at its origin.  Only links of finite travel time can be
used.  What the journey takes so far is found by adding up, link after link, the
costs, the travel times and the lengths.

Journeys are what the answers of searches are about: nothing in their
definition refers to how a search goes about finding one.
-/

namespace JourneyTimes

/-- The time and the cost of a link do not depend on when it is entered. -/
def CostModel.IsSteady {α : Type} (cost : CostModel α) (graph : Graph α) : Prop :=
  ∀ link ∈ graph.links, ∀ time other, cost.travelTime link time = cost.travelTime link other ∧
    cost.disutility link time = cost.disutility link other

/-- Being somewhere: what it has cost to get there, the time, and how far it
was. -/
structure Arrival (α : Type) where
  cost : α
  time : α
  distance : α
deriving Repr, DecidableEq

variable {α : Type} [Scalar α]

/-- Being at the first node of a journey. -/
def Arrival.departure (start : α) : Arrival α := ⟨0, start, 0⟩

/-- Going on along a link. -/
def Arrival.along (cost : CostModel α) (link : Graph.Link α) (here : Arrival α) :
    Arrival α :=
  { cost := here.cost + cost.disutility link here.time
    time := here.time + cost.travelTime link here.time
    distance := here.distance + link.length }

/-- Links that lead from one node to another, with the arrival there. -/
inductive Journey (graph : Graph α) (cost : CostModel α) (origin : Nat)
    (departure : Arrival α) : List (Graph.Link α) → Nat → Arrival α → Prop where
  | stay : Journey graph cost origin departure [] origin departure
  | go {links : List (Graph.Link α)} {node : Nat} {here : Arrival α} {link : Graph.Link α}
      (before : Journey graph cost origin departure links node here)
      (member : link ∈ graph.links) (leaves : link.origin = node)
      (usable : Scalar.isFinite (cost.travelTime link here.time) = true) :
      Journey graph cost origin departure (links ++ [link]) link.destination
        (here.along cost link)

namespace Journey

variable {graph : Graph α} {cost : CostModel α}

/-- The links of a journey determine where and how it arrives. -/
theorem unique {origin left right : Nat} {departure here there : Arrival α}
    {links : List (Graph.Link α)}
    (first : Journey graph cost origin departure links left here)
    (second : Journey graph cost origin departure links right there) :
    left = right ∧ here = there := by
  induction first generalizing right there with
  | stay =>
      generalize noLinks : ([] : List (Graph.Link α)) = links at second
      cases second with
      | stay => exact ⟨rfl, rfl⟩
      | go => simp at noLinks
  | go _ _ _ _ ih =>
      generalize sameLinks : _ ++ [_] = links at second
      cases second with
      | stay => simp at sameLinks
      | go before _ _ _ =>
          rcases List.append_inj' sameLinks rfl with ⟨rfl, lastLink⟩
          cases lastLink
          rcases ih before with ⟨-, rfl⟩
          exact ⟨rfl, rfl⟩

theorem node_lt {origin node : Nat} {departure arrival : Arrival α}
    {links : List (Graph.Link α)} (wellFormed : graph.WellFormed)
    (inside : origin < graph.size)
    (journey : Journey graph cost origin departure links node arrival) :
    node < graph.size := by
  cases journey with
  | stay => exact inside
  | go _ member _ _ => exact wellFormed.destination_lt _ member

theorem mem_links {origin node : Nat} {departure arrival : Arrival α}
    {links : List (Graph.Link α)}
    (journey : Journey graph cost origin departure links node arrival) :
    ∀ link ∈ links, link ∈ graph.links := by
  induction journey with
  | stay => simp
  | go _ member _ _ ih =>
      intro link found
      rcases List.mem_append.mp found with old | new
      · exact ih link old
      · rw [List.mem_singleton.mp new]
        exact member

/-- The last node that a journey visits is the one that it leads to. -/
theorem getElem?_length {origin node : Nat} {departure arrival : Arrival α}
    {links : List (Graph.Link α)}
    (journey : Journey graph cost origin departure links node arrival) :
    (origin :: links.map (·.destination))[links.length]? = some node := by
  cases journey with
  | stay => rfl
  | go _ _ _ _ => simp

/-- Every link of a journey joins two nodes that the journey visits one after the other. -/
theorem joins {origin node : Nat} {departure arrival : Arrival α} {links : List (Graph.Link α)}
    (journey : Journey graph cost origin departure links node arrival) {position : Nat}
    {link : Graph.Link α} (found : links[position]? = some link) :
    (origin :: links.map (·.destination))[position]? = some link.origin ∧
      (origin :: links.map (·.destination))[position + 1]? = some link.destination := by
  constructor
  · induction journey with
    | stay => simp at found
    | @go links node here last before _ leaves _ ih =>
        rw [List.map_append, ← List.cons_append]
        by_cases earlier : position < links.length
        · rw [List.getElem?_append_left earlier] at found
          rw [List.getElem?_append_left (by simp; omega)]
          exact ih found
        · have inside : position < (links ++ [last]).length :=
            (List.getElem?_eq_some_iff.mp found).1
          obtain rfl : position = links.length := by simp at inside; omega
          obtain rfl : last = link := by simpa using found
          rw [List.getElem?_append_left (by simp), before.getElem?_length, leaves]
  · simp [found]

/-- A journey that visits no node twice has fewer links than there are nodes. -/
theorem length_lt {origin node : Nat} {departure arrival : Arrival α}
    {links : List (Graph.Link α)}
    (journey : Journey graph cost origin departure links node arrival)
    (wellFormed : graph.WellFormed) (inside : origin < graph.size)
    (once : (origin :: links.map (·.destination)).Nodup) : links.length < graph.size := by
  have nodes : origin :: links.map (·.destination) ⊆ List.range graph.size := by
    intro visited member
    rw [List.mem_range]
    rw [List.mem_cons, List.mem_map] at member
    rcases member with rfl | ⟨link, member, rfl⟩
    · exact inside
    · exact wellFormed.destination_lt link (journey.mem_links link member)
  have few := (List.Nodup.subperm once nodes).length_le
  rw [List.length_cons, List.length_map, List.length_range] at few
  exact few

end Journey

end JourneyTimes
