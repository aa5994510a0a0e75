import JourneyTimes.Proofs.Search.Reopening

/-!
# Searches with a goal

A search with a goal may settle a node again when it finds a better way to it, and comes to
its end nevertheless.  The goal comes out of the frontier before any node that waits with a
greater key.  If the potential never overestimates, no journey that crosses the frontier
is then cheaper than the label of the goal.
-/

namespace JourneyTimes

variable {K : Type} [Field K] [LinearOrder K] [FloorRing K] [Trigonometry K]

/-- A journey that starts at a number of seconds meets no link with a negative cost where
there is none. -/
theorem CostModel.IsNonnegative.isNonnegativeFrom {graph : Graph (Exact K)}
    {cost : CostModel (Exact K)} (nonneg : cost.IsNonnegative graph) (source : Nat)
    {start : Exact K} (begins : ∃ seconds : K, start = seconds) :
    cost.IsNonnegativeFrom graph source start := by
  intro _ _ here journey link member _ usable
  rcases journey.time_finite begins with ⟨time, timeEq⟩
  rw [timeEq] at usable ⊢
  exact nonneg link member time usable

namespace Search

/-- What is asked of a search for least costs that has a goal and no bounds. -/
structure Query.IsGuided (query : Query (Exact K)) (goal : Nat) : Prop
    extends query.IsRegular where
  goal_eq : query.goal = some goal
  unbounded : query.bounds = .unbounded

/-- What holds of the states of a guided search between two steps. -/
structure Guided (query : Query (Exact K)) (state : State (Exact K)) : Prop
    extends Relaxed query state where
  unpruned : ∀ node, (state.labels.get node).pruned = false

variable [IsStrictOrderedRing K] {query : Query (Exact K)} {goal : Nat}

omit [IsStrictOrderedRing K] in
theorem Query.IsGuided.keepsAll (guided : query.IsGuided goal) : query.KeepsAll := by
  intro elapsed distance
  rw [guided.unbounded]
  rfl

namespace Guided

omit [IsStrictOrderedRing K] in
theorem initial (guided : query.IsGuided goal) {scratch : Scratch (Exact K)}
    (blank : Blank query.graph.size scratch) :
    Guided query (Search.initial query scratch) where
  toRelaxed := Relaxed.initial guided.toIsRegular blank
  unpruned := unpruned_of_reaches guided.wellFormed guided.source_lt guided.keepsAll blank .refl

theorem expand {state : State (Exact K)} (holds : Guided query state)
    (guided : query.IsGuided goal) {node : Nat} {rest : Frontier (Exact K)}
    (popped : state.frontier.pop? = some (node, rest)) :
    Guided query (Search.expand query node rest state) := by
  rcases holds.popped_found guided.wellFormed guided.source_lt popped with ⟨-, nodeInside⟩
  have closed := get_close query holds.valid nodeInside rest
  have open_ (other : Nat) :
      query.isFinal ((close query node rest state).labels.get other) = false := by
    rw [closed]
    split_ifs <;> simp [Query.isFinal, guided.goal_eq, holds.unpruned]
  refine ⟨holds.toRelaxed.expand guided.toIsRegular popped ?_, ?_⟩
  · intro other final
    rw [open_ other] at final
    cases final
  · exact holds.unpruned_expand guided.wellFormed guided.source_lt holds.unpruned popped

theorem step {state next : State (Exact K)} (holds : Guided query state)
    (guided : query.IsGuided goal) (step : Step query state next) : Guided query next := by
  cases step with
  | prune _ beyond =>
      rw [isBeyond, guided.keepsAll] at beyond
      cases beyond
  | expand popped _ _ => exact holds.expand guided popped

end Guided

/-! ## The end of a guided search -/

theorem guided_of_reaches (guided : query.IsGuided goal) {scratch : Scratch (Exact K)}
    (blank : Blank query.graph.size scratch) {state : State (Exact K)}
    (reaches : Reaches query (initial query scratch) state) : Guided query state :=
  reaches.keeps (Guided query) (fun holds step => holds.step guided step) (.initial guided blank)

/-- A guided search whose potential never overestimates solves its goal. -/
theorem run_solves_goal (guided : query.IsGuided goal) {scratch : Scratch (Exact K)}
    (blank : Blank query.graph.size scratch)
    {final : State (Exact K)} (ran : run query scratch = .ok final)
    (priced : ∀ link ∈ query.graph.links, query.cost.prices link = true)
    (costsTime : query.cost.CostsTime query.graph)
    (fifo : query.cost.IsFirstInFirstOut query.graph)
    (admissible : ∀ (node : Nat) (change arrival : Arrival (Exact K)) (links) (spent start : K),
      change.cost = spent → change.time = start →
      Journey query.graph query.cost node change links goal arrival →
      ∃ duration : K, arrival.cost = ↑(spent + duration) ∧ query.potential node ≤ duration) :
    Solves query final goal := by
  rcases guided.start_finite with ⟨start, starts⟩
  rcases ends_of_run ran with ⟨last, reaches, ends⟩
  have holds := guided_of_reaches guided blank reaches
  have awaitsNothing := awaited_of_reaches (by rw [guided.unbounded]; rfl) reaches
  cases ends with
  | exhausted exhausted =>
      exact holds.solves_of_exhausted priced costsTime fifo starts holds.unpruned exhausted goal
  | @arrived node rest popped _ ended =>
      obtain rfl : goal = node := by
        simpa [isOver, close, settle, awaitsNothing, guided.goal_eq] using ended
      apply holds.solves_of_popped priced costsTime fifo starts guided.wellFormed
        guided.source_lt holds.unpruned popped
      intro arrival crosses
      rcases crosses with ⟨waiting, change, first, others, waits, cheap, upto, onwards⟩
      rcases upto.costs_time costsTime 0 start rfl starts with ⟨spent, -, changeCost, changeTime⟩
      rcases admissible waiting change arrival others _ _ changeCost changeTime onwards with
        ⟨more, arrivalCost, potentialLe⟩
      have keys := holds.popped_key_le guided.toIsRegular popped waits
      rcases
          holds.cost_finite goal (holds.popped_found guided.wellFormed guided.source_lt popped).1.1
            with
        ⟨goalCost, -, goalCostEq⟩
      rcases holds.cost_finite waiting waits.1 with ⟨waitingCost, -, waitingCostEq⟩
      rcases guided.potential_finite goal with ⟨goalBound, goalBoundNonneg, goalBoundEq⟩
      rcases guided.potential_finite waiting with ⟨bound, -, boundEq⟩
      rw [goalCostEq, waitingCostEq, goalBoundEq, boundEq, Exact.finite_add_finite,
        Exact.finite_add_finite, Exact.finite_le_finite] at keys
      rw [waitingCostEq, changeCost, Exact.finite_le_finite] at cheap
      rw [boundEq, Exact.finite_le_finite] at potentialLe
      rw [goalCostEq, arrivalCost, Exact.finite_le_finite]
      linarith

end Search

end JourneyTimes
