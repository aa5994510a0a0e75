import JourneyTimes.Proofs.Search.LandmarkPath
import JourneyTimes.Proofs.Search.GuidedPath

/-!
# Paths that any landmarks guide to

Landmarks may have been prepared for another cost model, and say anything about where to look
first.  The search for a goal still comes to its end, and what it knows is in order at
every moment: labels stand for journeys that visit no node twice, and last links lead
back to the source without ever going round in a circle.

Nothing is assumed about the scalars but how costs are compared and added, so sums may be
rounded, as those of doubles are.  The lower bounds that landmarks give may even be undefined.
-/

namespace JourneyTimes

open Scalar (Accumulates)

variable {α : Type} [Scalar α]

namespace Search

/-- Last links lead back to the source from every node that has been found, and never back to
a node itself; and the label of each such node is that of a journey to it which visits no
node twice. -/
structure LeadsBack (query : Query α) (state : State α) : Prop where
  acyclic : ∀ node,
    ¬ Relation.TransGen (Precedes query.graph state.labels.get) node node
  linked : ∀ node, IsFound query state node →
    ∃ links, Linked query state.labels.get links node
  simple : ∀ node, IsFound query state node →
    ∃ links, Journey query.graph query.cost query.source (Arrival.departure query.start)
        links node (state.labels.get node).arrival ∧
      (query.source :: links.map (·.destination)).Nodup

theorem Forest.leadsBack [Accumulates α] {query : Query α} {state : State α}
    (forest : Forest query state) (posed : query.IsWellPosed) : LeadsBack query state where
  acyclic := forest.acyclic posed
  linked := forest.linked
  simple := by
    intro node found
    rcases forest.tracked node found with ⟨links, trail⟩
    exact ⟨links, trail.journey, trail.once⟩

end Search

/-- A path along last links from the source to a node, none of which it visits twice, and
which is found by following them back for as long as there are any. -/
structure Path.GoesAlong (path : Path α) (tree : PathTree α) (query : Search.Query α)
    (links : List (Graph.Link α)) (node : Nat) : Prop where
  linked : Search.Linked query tree.label links node
  nodes_eq : path.nodes = query.source :: links.map (·.destination)
  links_eq : path.links = links.map (·.index)
  once : path.nodes.Nodup
  trace_eq : tree.trace node = some (path.nodes, path.links)

namespace PathTree

open Search

variable {graph : Graph α} {cost : CostModel α}

/-- The path to a node that is reported goes along the chain of last links. -/
theorem Answers.goesAlong {query : Query α} {final : State α} {tree : PathTree α}
    (answers : Answers query final tree) (posed : query.IsWellPosed)
    (forest : Forest query final) {links : List (Graph.Link α)} {node : Nat}
    (linked : Linked query final.labels.get links node) {path : Path α}
    (found : tree.path? node = some path) : path.GoesAlong tree query links node := by
  have sameLabels : tree.label = final.labels.get := funext answers.label_eq
  have once := linked.once posed.wellFormed forest.origin_via
  have traceEq := answers.trace_eq_of_linked posed.wellFormed forest.origin_via linked
  rcases Option.bind_eq_some_iff.mp found with ⟨time, -, found⟩
  rw [traceEq] at found
  cases found
  exact ⟨sameLabels ▸ linked, rfl, rfl, once, traceEq⟩

variable [Accumulates α]

/-- Whatever landmarks guide a path tree, and whatever it was asked before, the search for a
goal takes steps that come to an end.  Every state that it passes, also between two links
of a node, leads back to the source.  The path that is found goes along the chain of last
links of the goal. -/
theorem calculatePath_leadsBack (wellFormed : graph.WellFormed) {landmarks : Landmarks α}
    {tree : PathTree α} (used : Used graph cost (some landmarks) tree)
    {origin destination : Nat} (originInside : origin < graph.size)
    (destinationInside : destination < graph.size) {start : α}
    (nonneg : cost.IsNonnegativeFrom graph origin start)
    (priced : ∀ link ∈ graph.links, cost.prices link = true) :
    let query := tree.query origin start .unbounded (some destination)
    ∃ last final path answered,
      Reaches query (initial query tree.scratch.reset) last ∧ Ends query last final ∧
      run query tree.scratch.reset = .ok final ∧
      (∀ state, Passes query (initial query tree.scratch.reset) state → LeadsBack query state) ∧
      tree.calculatePath origin destination start = .ok (path, answered) ∧
      Answers query final answered ∧
      ∀ found, path = some found →
        ∃ links, found.GoesAlong answered query links destination := by
  intro query
  rcases used.ready with ⟨rfl, rfl, landmarksEq, resettable⟩
  have hasLandmarks : tree.landmarks.isSome = true := by
    rw [landmarksEq]
    rfl
  have reopens : query.Reopens destination :=
    { wellFormed, source_lt := originInside, nonneg, goal_eq := rfl, keepsAll := fun _ _ => rfl }
  have posed := reopens.toIsWellPosed
  have blank : Blank tree.graph.size tree.scratch.reset := .reset resettable
  have first := Forest.initial posed blank
  rcases loop_ends_of_reopens reopens blank with ⟨final, ended⟩
  have ran : run query tree.scratch.reset = .ok final := run_ok_of_loop priced ended
  rcases ends_of_run ran with ⟨last, reaches, ends⟩
  have forest := run_forest posed blank ran
  have sound := run_sound wellFormed originInside blank ran
  have searched : tree.search origin start .unbounded (some destination) =
      .ok { tree.reset origin start with scratch := final.toScratch } := by
    rw [search_eq, ran]
    rfl
  have answers : Answers query final { tree.reset origin start with scratch := final.toScratch } :=
    ⟨rfl, rfl, rfl⟩
  have leads := answers.leadsHome_of_forest wellFormed sound forest destination
  refine ⟨last, final, _, _, reaches, ends, ran, ?_, calculatePath_eq originInside
    destinationInside ((if_pos hasLandmarks).trans searched) leads, answers, ?_⟩
  · intro state passes
    exact (first.passes posed passes).leadsBack posed
  · intro found isFound
    have settled := settled_of_isReached (path?_eq_some isFound).1
    rw [answers.label_eq] at settled
    rcases forest.linked destination (sound.found_of_settled settled) with ⟨links, linked⟩
    exact ⟨links, answers.goesAlong posed forest linked isFound⟩

end PathTree

/-- A landmark that takes the second node of `Graph.triangle` for a remote place. -/
def Landmarks.misleading : Landmarks (Exact ℚ) where
  size := 3
  members :=
    [{ node := 0
       costsFrom := #[(0 : ℚ), (0 : ℚ), (0 : ℚ)]
       costsTo := #[(0 : ℚ), (1000 : ℚ), (0 : ℚ)] }]

/-- The way over the second node costs less, but the search does not look there. -/
theorem PathTree.calculatePath_leadsBack_triangle :
    ∃ path answered links last,
      (withLandmarks Graph.triangle CostModel.congested .misleading).calculatePath
          0 2 (28800 : ℚ) = .ok (some path, answered) ∧
      path.nodes = [0, 2] ∧ path.cost = (50 : ℚ) ∧
      path.GoesAlong answered ((withLandmarks Graph.triangle CostModel.congested
        .misleading).query 0 (28800 : ℚ) .unbounded (some 2)) links 2 ∧
      Search.LeadsBack ((withLandmarks Graph.triangle CostModel.congested
        .misleading).query 0 (28800 : ℚ) .unbounded (some 2)) last := by
  have nonneg : CostModel.congested.IsNonnegativeFrom Graph.triangle 0 (28800 : ℚ) := by
    apply CostModel.isNonnegativeFrom_of_nonneg
    intro link _ time
    rw [CostModel.congested]
    dsimp only
    split_ifs <;> exact Exact.finite_nonneg.mpr (by norm_num)
  have found : ((withLandmarks Graph.triangle CostModel.congested
      .misleading).calculatePathWithin 4 0 2 (28800 : ℚ)).map
        (fun answer => (answer.1.nodes, answer.1.cost)) =
      some ([0, 2], ((50 : ℚ) : Exact ℚ)) := by
    decide +kernel
  rcases Option.map_eq_some_iff.mp found with ⟨⟨path, answered⟩, within, reported⟩
  rcases calculatePath_leadsBack Graph.triangle_wellFormed (.withLandmarks .misleading)
      (by decide : 0 < 3) (by decide : 2 < 3) nonneg (fun _ _ => rfl) with
    ⟨last, -, _, _, reaches, -, -, leadsBack, done, -, goesAlong⟩
  cases done.symm.trans (calculatePath_of_within within)
  rcases Prod.mk.inj reported with ⟨nodes, price⟩
  rcases goesAlong path rfl with ⟨links, along⟩
  exact ⟨path, answered, links, last, done, nodes, price, along,
    leadsBack last (.between reaches)⟩

end JourneyTimes
