import JourneyTimes.Proofs.Search.Reopening
import JourneyTimes.Proofs.Search.ReportedPath

/-!
# Paths between two nodes

A path tree with landmarks looks for a path with a search that has a goal, and one without
landmarks with a search that stops at a target.  The second always comes to its end, and so
does the first if no link has a negative cost.  Last links then lead back from the
destination to the source, so there is an answer.
-/

namespace JourneyTimes.PathTree

open Search
open Scalar (Accumulates)

variable {α : Type} [Scalar α] {tree answered : PathTree α} {node : Nat}

/-- Last links lead back from a node, if it has been reached. -/
def LeadsHome (tree : PathTree α) (node : Nat) : Prop :=
  tree.isReached node = true → (tree.trace node).isSome = true

theorem LeadsHome.isSome_path? (leads : tree.LeadsHome node) :
    (tree.path? node).isSome = tree.isReached node := by
  cases isReached : tree.isReached node with
  | false => simp [path?, time?, isReached]
  | true =>
      rcases Option.isSome_iff_exists.mp (leads isReached) with ⟨way, traced⟩
      simp [path?, time?, isReached, traced]

theorem LeadsHome.findPath_eq (leads : tree.LeadsHome node) :
    tree.findPath node = .ok (tree.path? node) := by
  have found := leads.isSome_path?
  rw [findPath]
  cases path : tree.path? node with
  | some _ => rfl
  | none =>
      rw [path] at found
      rw [← found]
      rfl

/-- The path to a node that has been reached is never found if last links lead from it round
in a circle. -/
theorem findPath_of_cycle (isReached : tree.isReached node = true)
    (cycle : Relation.TransGen (Precedes tree.graph tree.label) node node) :
    tree.findPath node = .error (.config .endless) := by
  have noPath : tree.path? node = none := by
    rw [path?, trace_eq_none_of_cycle cycle]
    cases tree.time? node <;> rfl
  rw [findPath, noPath]
  exact if_pos isReached

/-- The path to a node from which last links lead back takes what is reported for the node. -/
theorem LeadsHome.map_path? (leads : tree.LeadsHome node) :
    (tree.path? node).map (·.cost) = tree.cost? node ∧
      (tree.path? node).map (·.travelTime) = (tree.time? node).map (· - tree.startTime) := by
  cases isReached : tree.isReached node with
  | false => simp [path?, time?, cost?, isReached]
  | true =>
      rcases Option.isSome_iff_exists.mp (leads isReached) with ⟨way, traced⟩
      simp [path?, time?, cost?, isReached, traced]

theorem path?_eq_some {path : Path α} (found : tree.path? node = some path) :
    tree.isReached node = true ∧ path.cost = (tree.label node).cost ∧
      path.travelTime = (tree.label node).time - tree.startTime := by
  rcases Option.bind_eq_some_iff.mp found with ⟨time, timed, found⟩
  rcases Option.bind_eq_some_iff.mp found with ⟨way, -, found⟩
  cases found
  rw [time?] at timed
  split_ifs at timed with isReached
  cases timed
  exact ⟨isReached, rfl, rfl⟩

theorem calculatePath_eq {origin destination : Nat} (originInside : origin < tree.graph.size)
    (destinationInside : destination < tree.graph.size) {start : α}
    (searched : tree.searchPath origin destination start = .ok answered)
    (leads : answered.LeadsHome destination) :
    tree.calculatePath origin destination start =
      .ok (answered.path? destination, answered) := by
  simp only [calculatePath, Graph.checkNode, originInside, destinationInside, if_true, ok_bind,
    searched, leads.findPath_eq]
  rfl

variable {query : Query α} {final : State α}

/-- The nodes that a search without a goal has settled have ways from the source. -/
theorem Answers.leadsHome_of_rooted (answers : Answers query final tree)
    (wellFormed : query.graph.WellFormed) (rooted : Rooted query final) (node : Nat) :
    tree.LeadsHome node := by
  intro isReached
  have settled := settled_of_isReached isReached
  rw [answers.label_eq] at settled
  rcases rooted.exists_simple settled with ⟨links, traced, -⟩
  rw [answers.trace_eq wellFormed rooted.origin_via traced]
  rfl

/-- Nodes have ways from the source if last links make a forest. -/
theorem Answers.leadsHome_of_forest (answers : Answers query final tree)
    (wellFormed : query.graph.WellFormed) (sound : Sound query final)
    (forest : Forest query final) (node : Nat) : tree.LeadsHome node := by
  intro isReached
  have settled := settled_of_isReached isReached
  rw [answers.label_eq] at settled
  rcases forest.linked node (sound.found_of_settled settled) with ⟨links, linked⟩
  rw [answers.trace_eq_of_linked wellFormed forest.origin_via linked]
  rfl

variable {graph : Graph α} {cost : CostModel α} {landmarks : Landmarks α}
  (wellFormed : graph.WellFormed) (priced : ∀ link ∈ graph.links, cost.prices link = true)
  {origin destination : Nat} (originInside : origin < graph.size)
  (destinationInside : destination < graph.size)

include wellFormed priced originInside destinationInside

/-- Without landmarks a path tree finds the path with a search that stops at the
destination, whatever it was asked before. -/
theorem Used.calculatePath_plain (used : Used graph cost none tree) (start : α) :
    ∃ scratch final answered, Blank graph.size scratch ∧
      run (queryOn graph cost none origin start (.targets [destination]) none) scratch =
        .ok final ∧
      tree.calculatePath origin destination start =
        .ok (answered.path? destination, answered) ∧
      answered.LeadsHome destination ∧
      Answers (queryOn graph cost none origin start (.targets [destination]) none)
        final answered := by
  have ready := used.ready
  rcases ready.search_ok priced origin start (.targets [destination]) none
    (fun blank => loop_ends_of_noGoal wellFormed originInside rfl blank) with
    ⟨scratch, final, answered, blank, ran, searched, answers⟩
  have leads := answers.leadsHome_of_rooted wellFormed
    (run_rooted wellFormed originInside rfl blank ran) destination
  rw [← ready.graph_eq] at originInside destinationInside
  refine ⟨scratch, final, answered, blank, ran,
    calculatePath_eq originInside destinationInside ?_ leads, leads, answers⟩
  rw [searchPath, ready.landmarks_eq]
  exact searched

/-- With landmarks a path tree finds the path with a search for the destination, whatever it
was asked before, if no journey has a link of a negative cost. -/
theorem Used.calculatePath_guided [Accumulates α] (used : Used graph cost (some landmarks) tree)
    {start : α} (nonneg : cost.IsNonnegativeFrom graph origin start) :
    ∃ scratch final answered, Blank graph.size scratch ∧
      run (queryOn graph cost (some landmarks) origin start .unbounded (some destination))
        scratch = .ok final ∧
      tree.calculatePath origin destination start =
        .ok (answered.path? destination, answered) ∧
      answered.LeadsHome destination ∧
      Answers (queryOn graph cost (some landmarks) origin start .unbounded (some destination))
        final answered := by
  have ready := used.ready
  have reopens : (queryOn graph cost (some landmarks) origin start .unbounded
      (some destination)).Reopens destination :=
    { wellFormed, source_lt := originInside, nonneg, goal_eq := rfl, keepsAll := fun _ _ => rfl }
  rcases ready.search_ok priced origin start .unbounded (some destination)
    (fun blank => loop_ends_of_reopens reopens blank) with
    ⟨scratch, final, answered, blank, ran, searched, answers⟩
  have leads := answers.leadsHome_of_forest wellFormed
    (run_sound wellFormed originInside blank ran) (run_forest reopens.toIsWellPosed blank ran)
    destination
  rw [← ready.graph_eq] at originInside destinationInside
  refine ⟨scratch, final, answered, blank, ran,
    calculatePath_eq originInside destinationInside ?_ leads, leads, answers⟩
  rw [searchPath, ready.landmarks_eq]
  exact searched

end JourneyTimes.PathTree
