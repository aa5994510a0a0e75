import JourneyTimes.Proofs.Landmarks.Consistent
import JourneyTimes.Proofs.Search.Consistent
import JourneyTimes.Proofs.Search.Fresh
import JourneyTimes.Proofs.Search.LandmarkPath
import JourneyTimes.Proofs.Search.ReportedPath

/-!
# Paths that landmarks guide to

With landmarks of its own cost model a path tree finds paths that take what it
reports, whether or not who enters a link later arrives later, and whether or not
links cost the time that they take.  Only the minima have to be what they are called.

The nodes that matter are those from which the goal can be reached along links of
finite minimum.  On these the lower bound is consistent.  A link of infinite minimum
always has an infinite cost, and no label comes along it.
-/

namespace JourneyTimes

variable {K : Type} [Field K] [LinearOrder K] [FloorRing K] [Trigonometry K]

/-- Minima are not negative, and no link costs less when it can be used. -/
structure CostModel.RespectsMinima (cost : CostModel (Exact K)) (graph : Graph (Exact K)) :
    Prop where
  minima : cost.HasNonnegativeMinima graph
  le : ∀ link ∈ graph.links, ∀ time : K,
    Scalar.isFinite (cost.travelTime link time) = true →
    cost.minimum link ≤ cost.disutility link time

theorem CostModel.IsBoundedBy.respectsMinima {graph : Graph (Exact K)}
    {cost : CostModel (Exact K)} (bounded : cost.IsBoundedBy cost graph) :
    cost.RespectsMinima graph where
  minima := bounded.minima
  le link member time _ := bounded.le link member time

theorem CostModel.RespectsMinima.isNonnegative {graph : Graph (Exact K)}
    {cost : CostModel (Exact K)} (respects : cost.RespectsMinima graph) :
    cost.IsNonnegative graph := by
  intro link member time usable
  exact Exact.le_trans (respects.minima link member) (respects.le link member time usable)

namespace PathTree

open Search

section

variable {α : Type} [Scalar α] {tree answered : PathTree α}

/-- The nodes that a search for a goal takes out of its frontier in a number of rounds, in their
order. -/
def taken (tree : PathTree α) (rounds origin destination : Nat) (start : α) : List Nat :=
  let query := tree.query origin start .unbounded (some destination)
  Search.taken query rounds (initial query tree.scratch.reset)

/-- With landmarks a path is found by a search for a goal. -/
theorem search_of_guided {origin destination : Nat} {start : α} {path : Path α}
    (hasLandmarks : tree.landmarks.isSome = true)
    (done : tree.calculatePath origin destination start = .ok (some path, answered)) :
    tree.search origin start .unbounded (some destination) = .ok answered ∧
      answered.path? destination = some path := by
  rcases searchPath_of_calculatePath done with ⟨searched, reports⟩
  rw [searchPath, if_pos hasLandmarks] at searched
  refine ⟨searched, ?_⟩
  rw [findPath] at reports
  split at reports
  · rename_i found
    rw [found, Except.ok.inj reports]
  · split_ifs at reports
    cases reports

end

variable [IsStrictOrderedRing K] {graph : Graph (Exact K)} {cost : CostModel (Exact K)}

/-- Landmarks of the cost model itself are consistent on the nodes that reach the goal. -/
theorem isConsistent_queryOn (wellFormed : graph.WellFormed)
    (respects : cost.RespectsMinima graph) {landmarks : Landmarks (Exact K)}
    (sound : ∀ landmark ∈ landmarks.members, landmark.IsSound graph cost) {source : Nat}
    (inside : source < graph.size) (start : K) (goal : Nat) :
    (queryOn graph cost (some landmarks) source start .unbounded (some goal)).IsConsistent goal
      (graph.HasFiniteWalk cost · goal) := by
  constructor
  case toIsGuided =>
    exact
      { wellFormed
        source_lt := inside
        start_finite := ⟨start, rfl⟩
        nonneg := respects.isNonnegative
        potential_finite := fun node => landmarks.lowerBound_finite node goal
        goal_eq := rfl
        unbounded := rfl }
  case goal_matters => exact .refl graph cost goal
  case origin_matters =>
    intro link member onwards time usable finite
    rcases Exact.isFinite_iff.mp finite with ⟨price, priceEq⟩
    have atMost : cost.minimum link ≤ price := priceEq ▸ respects.le link member time usable
    have below := Exact.lt_of_le_of_lt atMost (Exact.finite_lt_infinity price)
    rcases Exact.finite_of_nonneg_of_lt (respects.minima link member) below with
      ⟨least, -, leastEq⟩
    exact onwards.go member (by rw [leastEq]; rfl)
  case potential_le =>
    intro link member onwards time usable
    rcases landmarks.lowerBound_finite link.destination goal with ⟨ahead, nonneg, aheadEq⟩
    have aheadNonneg : 0 ≤ landmarks.lowerBound link.destination goal := by
      rw [aheadEq]
      exact Exact.finite_nonneg.mpr nonneg
    exact Exact.le_trans
      (landmarks.lowerBound_le_minimum_add sound respects.minima member onwards)
      (Exact.add_le_add_of_nonneg (respects.minima link member) aheadNonneg
        (respects.le link member time usable) (Exact.le_self_of_le aheadNonneg))

omit [IsStrictOrderedRing K] in
/-- The path to the goal of a search with a consistent potential takes what the label of the
goal says. -/
theorem Answers.follows_of_recorded {query : Query (Exact K)} {final : State (Exact K)}
    {answered : PathTree (Exact K)} {record : List Nat} {matters : Nat → Prop} {goal : Nat}
    (answers : Answers query final answered) (consistent : query.IsConsistent goal matters)
    (recorded : Recorded query matters record final) {path : Path (Exact K)}
    (found : answered.path? goal = some path) :
    ∃ links arrival,
      path.Follows query.graph query.cost query.source query.start links goal arrival := by
  have isReached := (path?_eq_some found).1
  have settled : (final.labels.get goal).settled = true := by
    rw [← answers.label_eq]
    exact settled_of_isReached isReached
  rcases List.append_of_mem ((recorded.mem_iff goal consistent.goal_matters).mpr settled) with
    ⟨before, after, split⟩
  rcases exists_traced recorded.earlier split consistent.goal_matters with
    ⟨links, traced, sub, allMatter⟩
  have once : (query.source :: links.map (·.destination)).Nodup := by
    rw [List.nodup_iff_count_le_one]
    intro visited
    by_cases member : visited ∈ query.source :: links.map (·.destination)
    · have whole : (query.source :: links.map (·.destination)).Sublist record := by
        rw [split, List.append_cons]
        exact sub.trans (List.sublist_append_left ..)
      exact (whole.count_le visited).trans (recorded.count_le visited (allMatter visited member))
    · rw [List.count_eq_zero.mpr member]
      exact Nat.zero_le 1
  have reported : answered.time? goal = some (final.labels.get goal).time := by
    rw [time?, if_pos isReached, answers.label_eq]
  rcases answers.follows_of_traced consistent.wellFormed
      recorded.origin_arrival recorded.origin_via traced once reported with
    ⟨same, sameFound, follows, -⟩
  obtain rfl : path = same := Option.some.inj (found.symm.trans sameFound)
  exact ⟨links, _, follows⟩

/-- Landmarks of a cost model that never costs less than its minima are consistent on the
nodes that reach the goal.  Each of these nodes comes out of the frontier at most once, and
the path that is found takes what is reported. -/
theorem calculatePath_replays (wellFormed : graph.WellFormed)
    (bounded : cost.IsBoundedBy cost graph) {number : Nat} {selection : Selection}
    {landmarks : Landmarks (Exact K)}
    (preprocessed : Landmarks.preprocess graph cost number selection = .ok landmarks)
    {tree : PathTree (Exact K)} (used : Used graph cost (some landmarks) tree)
    {origin destination : Nat} (originInside : origin < graph.size)
    (destinationInside : destination < graph.size) (start : K) :
    (∀ link ∈ graph.links, graph.HasFiniteWalk cost link.destination destination →
      landmarks.lowerBound link.origin destination ≤
        cost.minimum link + landmarks.lowerBound link.destination destination) ∧
    (∀ rounds node, graph.HasFiniteWalk cost node destination →
      (tree.taken rounds origin destination start).count node ≤ 1) ∧
    ((∀ link ∈ graph.links, cost.prices link = true) →
      ∃ path answered, tree.calculatePath origin destination start = .ok (path, answered)) ∧
    ∀ path answered, tree.calculatePath origin destination start = .ok (some path, answered) →
      ∃ links arrival, path.Follows graph cost origin start links destination arrival := by
  have ready := used.ready
  have sound := Landmarks.preprocess_isSound wellFormed bounded.minima preprocessed
  have hasLandmarks : tree.landmarks.isSome = true := by
    rw [ready.landmarks_eq]
    rfl
  have consistent :=
    isConsistent_queryOn wellFormed bounded.respectsMinima sound originInside start destination
  refine ⟨?_, ?_, ?_, ?_⟩
  · intro link member onwards
    exact landmarks.lowerBound_le_minimum_add sound bounded.minima member onwards
  · intro rounds node onwards
    rw [taken, ready.query_eq]
    rcases exists_recorded consistent (.reset ready.resettable) rounds with ⟨_, ⟨-, -, recorded⟩, -⟩
    exact recorded.count_le node onwards
  · intro priced
    have nonneg := bounded.respectsMinima.isNonnegative.isNonnegativeFrom origin ⟨start, rfl⟩
    rcases used.calculatePath_guided wellFormed priced originInside destinationInside nonneg with
      ⟨-, -, answered, -, -, done, -⟩
    exact ⟨_, answered, done⟩
  · intro path answered done
    rcases search_of_guided hasLandmarks done with ⟨searched, found⟩
    rcases ready.answers_of_search searched with ⟨_, final, blank, ran, answers⟩
    rcases run_recorded consistent blank ran with ⟨-, -, record, recorded⟩
    exact answers.follows_of_recorded consistent recorded found

end PathTree

/-- The second link of `Graph.triangle` is congested until half past eight: those who enter it
then arrive earlier than those who did before.  The cost of a link is not the time that
it takes. -/
def CostModel.congested : CostModel (Exact ℚ) where
  travelTime link time :=
    if link.index = 1 ∧ time < ↑(30600 : ℚ) then ↑(3600 : ℚ) else ↑(10 : ℚ)
  disutility link time :=
    if link.index = 2 then ↑(50 : ℚ)
    else if time < ↑(30600 : ℚ) then ↑(20 : ℚ) else ↑(10 : ℚ)
  minimum link := if link.index = 2 then ↑(50 : ℚ) else ↑(10 : ℚ)

theorem CostModel.congested_isBoundedBy (graph : Graph (Exact ℚ)) :
    CostModel.congested.IsBoundedBy CostModel.congested graph where
  minima link _ := by
    rw [congested]
    dsimp only
    split_ifs <;> exact Exact.finite_nonneg.mpr (by norm_num)
  le link _ time := by
    rw [congested]
    dsimp only
    split_ifs <;> exact Exact.finite_le_finite.mpr (by norm_num)

/-- The way over the other node costs less, though one is stuck on it for an hour. -/
theorem PathTree.calculatePath_replays_triangle :
    ¬ CostModel.congested.IsFirstInFirstOut Graph.triangle ∧
    ∃ landmarks answered path links arrival,
      Landmarks.preprocess Graph.triangle CostModel.congested 1 .farthest = .ok landmarks ∧
      (withLandmarks Graph.triangle CostModel.congested landmarks).calculatePath
          0 2 (28800 : ℚ) = .ok (some path, answered) ∧
      path.Follows Graph.triangle CostModel.congested 0 (28800 : ℚ) links 2 arrival ∧
      path.nodes = [0, 1, 2] ∧ path.travelTime = (3610 : ℚ) ∧ path.cost = (40 : ℚ) ∧
      ((withLandmarks Graph.triangle CostModel.congested landmarks).taken
          3 0 2 (28800 : ℚ)).count 1 ≤ 1 := by
  constructor
  · intro fifo
    have second : (Graph.triangle : Graph (Exact ℚ)).links[1]? = some _ := rfl
    have order := fifo _ (Array.mem_of_getElem? second) 30000 30600 (by norm_num)
    revert order
    decide +kernel
  · have found : ((Landmarks.preprocess Graph.triangle CostModel.congested 1
          .farthest).toOption.bind fun landmarks =>
        ((withLandmarks Graph.triangle CostModel.congested landmarks).calculatePathWithin 4 0 2
          (28800 : ℚ)).map fun answer =>
            (answer.1.nodes, answer.1.travelTime, answer.1.cost)) =
        some ([0, 1, 2], ((3610 : ℚ) : Exact ℚ), ((40 : ℚ) : Exact ℚ)) := by
      decide +kernel
    rcases exists_of_bind_toOption found with ⟨landmarks, preprocessed, answers⟩
    rcases Option.map_eq_some_iff.mp answers with ⟨⟨path, answered⟩, within, shown⟩
    have done := calculatePath_of_within within
    rcases Prod.mk.inj shown with ⟨nodes, rest⟩
    rcases Prod.mk.inj rest with ⟨travelTime, price⟩
    rcases calculatePath_replays Graph.triangle_wellFormed (CostModel.congested_isBoundedBy _)
        preprocessed (.withLandmarks landmarks) (by decide : 0 < 3) (by decide : 2 < 3) 28800 with
      ⟨-, once, -, replays⟩
    rcases replays path answered done with ⟨links, arrival, follows⟩
    have second : (Graph.triangle : Graph (Exact ℚ)).links[1]? = some _ := rfl
    have onwards : (Graph.triangle : Graph (Exact ℚ)).HasFiniteWalk CostModel.congested 1 2 :=
      Graph.HasFiniteWalk.go (Array.mem_of_getElem? second) rfl (.refl _ _ 2)
    exact ⟨landmarks, answered, path, links, arrival, preprocessed, done, follows, nodes,
      travelTime, price, once 3 1 onwards⟩

end JourneyTimes
