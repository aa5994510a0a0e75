import JourneyTimes.Proofs.Scalar.Accumulates
import JourneyTimes.Proofs.Search.Sound
import Mathlib.Data.Finset.Prod
import Mathlib.Data.Finset.Range
import Mathlib.Tactic.Ring

/-!
# Labels stand for journeys without detours

Where no link has a negative cost, the label of a node is that of a journey that
visits no node twice: at a node that it has visited before, it would have to
offer a cheaper label than it had there itself.  There are only so many such
journeys in a graph, and that bounds how often a search can find a better one.
-/

namespace JourneyTimes

/-! ## Counting ways -/

section Ways

variable {L : Type} [DecidableEq L]

/-- The lists of some links that have no more than some length. -/
def ways (links : Finset L) : Nat → Finset (List L)
  | 0 => {[]}
  | length + 1 =>
    ways links length ∪
      (ways links length ×ˢ links).image fun pair => pair.1 ++ [pair.2]

theorem mem_ways {links : Finset L} {length : Nat} {way : List L}
    (short : way.length ≤ length) (inside : ∀ link ∈ way, link ∈ links) :
    way ∈ ways links length := by
  induction length generalizing way with
  | zero => simpa [ways] using short
  | succ length ih =>
      rw [ways, Finset.mem_union]
      rcases List.eq_nil_or_concat way with rfl | ⟨rest, link, rfl⟩
      · exact .inl (ih (Nat.zero_le _) (by simp))
      · refine .inr (Finset.mem_image.mpr ⟨(rest, link), Finset.mem_product.mpr ⟨?_, ?_⟩, ?_⟩)
        · exact ih (by simpa using short) fun other member => inside other (by simp [member])
        · exact inside link (by simp)
        · simp

end Ways

variable {α : Type} [Scalar α]

/-- No link has a negative cost when a journey from a node can take it. -/
def CostModel.IsNonnegativeFrom (cost : CostModel α) (graph : Graph α) (source : Nat)
    (start : α) : Prop :=
  ∀ links node here, Journey graph cost source (Arrival.departure start) links node here →
    ∀ link ∈ graph.links, link.origin = node →
      Scalar.isFinite (cost.travelTime link here.time) = true →
        0 ≤ cost.disutility link here.time

/-- Where links never have negative costs, journeys do not find any. -/
theorem CostModel.isNonnegativeFrom_of_nonneg {cost : CostModel α} {graph : Graph α}
    (nonneg : ∀ link ∈ graph.links, ∀ time, 0 ≤ cost.disutility link time) (source : Nat)
    (start : α) : cost.IsNonnegativeFrom graph source start := by
  intro _ _ here _ link member _ _
  exact nonneg link member here.time

open Scalar (Accumulates)

/-- Journeys never come to cost less than nothing. -/
theorem Journey.cost_nonneg [Accumulates α] {graph : Graph α} {cost : CostModel α}
    {source : Nat} {start : α} (nonneg : cost.IsNonnegativeFrom graph source start)
    {links : List (Graph.Link α)} {node : Nat} {arrival : Arrival α}
    (journey : Journey graph cost source (Arrival.departure start) links node arrival) :
    0 ≤ arrival.cost := by
  induction journey with
  | stay => exact Accumulates.zero_le_zero
  | go before member leaves usable ih =>
      exact Accumulates.le_trans ih
        (Accumulates.le_add ih (nonneg _ _ _ before _ member leaves usable))

namespace Search

variable {query : Query α}

/-- A journey that visits no node twice, and that costs no less than the label of any node
that it visits. -/
structure Trail (query : Query α) (state : State α) (links : List (Graph.Link α))
    (node : Nat) (arrival : Arrival α) : Prop where
  journey : Journey query.graph query.cost query.source (Arrival.departure query.start)
    links node arrival
  once : (query.source :: links.map (·.destination)).Nodup
  cheap : ∀ visited ∈ query.source :: links.map (·.destination),
    (state.labels.get visited).cost ≤ arrival.cost

/-- Labels only get cheaper. -/
def Cheapens (state next : State α) : Prop :=
  ∀ node bound, (state.labels.get node).cost ≤ bound → (next.labels.get node).cost ≤ bound

namespace Trail

variable {state next : State α} {links : List (Graph.Link α)} {node : Nat}
  {arrival : Arrival α}

/-- A trail stays one when labels get cheaper. -/
theorem mono (trail : Trail query state links node arrival) (cheaper : Cheapens state next) :
    Trail query next links node arrival where
  journey := trail.journey
  once := trail.once
  cheap := fun visited passed => cheaper visited _ (trail.cheap visited passed)

theorem length_lt (trail : Trail query state links node arrival)
    (wellFormed : query.graph.WellFormed) (inside : query.source < query.graph.size) :
    links.length < query.graph.size :=
  trail.journey.length_lt wellFormed inside trail.once

theorem mem_ways [DecidableEq α] (trail : Trail query state links node arrival)
    (wellFormed : query.graph.WellFormed) (inside : query.source < query.graph.size) :
    links ∈ ways query.graph.links.toList.toFinset query.graph.size :=
  JourneyTimes.mem_ways (trail.length_lt wellFormed inside).le fun link member => by
    simpa using trail.journey.mem_links link member

end Trail

end Search

end JourneyTimes
