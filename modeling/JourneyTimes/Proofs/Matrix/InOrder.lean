import JourneyTimes.Proofs.Matrix.Sparse
import JourneyTimes.Proofs.Search.Settling
import JourneyTimes.Proofs.Search.Targets

/-!
# Reached nodes are reported in order

What a path tree reports after a search without a goal begins with the source, names no
node twice, and goes on in the order of costs if no link has a negative cost, in step with
the rows of a sparse matrix.  If every link raises the cost that it is added to, nodes of
the same cost follow each other in the order of their numbers.

In exact arithmetic every cost above zero raises the one it is added to.  Doubles are
rounded, and a cost that is small enough is lost.
-/

namespace JourneyTimes

open Scalar (Sorted)

variable {α : Type} [Scalar α]

/-- In exact arithmetic links that cost something raise the cost. -/
theorem CostModel.raisesFrom_of_pos {K : Type} [Field K] [LinearOrder K] [FloorRing K]
    [Trigonometry K] [IsStrictOrderedRing K] {cost : CostModel (Exact K)}
    {graph : Graph (Exact K)} (pos : ∀ link ∈ graph.links, ∀ time, 0 < cost.disutility link time)
    (source : Nat) (start : Exact K) : cost.RaisesFrom graph source start := by
  intro links node here journey finite link member _ _
  have nonneg : 0 ≤ here.cost := journey.cost_nonneg (CostModel.isNonnegativeFrom_of_nonneg
    (fun link member time => Exact.le_of_lt (pos link member time)) source start)
  have above := pos link member here.time
  rcases Exact.finite_of_nonneg_of_lt nonneg finite with ⟨spent, -, spentEq⟩
  rcases Exact.nonneg_iff.mp (Exact.le_of_lt above) with endless | ⟨more, -, moreEq⟩
  · rw [spentEq, endless, Exact.finite_add_infinity]
    exact Exact.finite_lt_infinity spent
  · rw [moreEq, Exact.zero_eq, Exact.finite_lt_finite] at above
    rw [spentEq, moreEq, Exact.finite_add_finite, Exact.finite_lt_finite]
    exact lt_add_of_pos_right spent above

namespace PathTree

/-- What a path tree has reached from a source, in order. -/
structure ReachesInOrder (graph : Graph α) (cost : CostModel α) (source : Nat) (start : α)
    (bounds : SearchBounds α) (tree : PathTree α) : Prop where
  once : tree.reached.toList.Nodup
  reported : ∀ node, node ∈ tree.reached.toList ↔ tree.isReached node = true
  begins : bounds.prunes (start - start) 0 = false →
    ∃ rest, tree.reached.toList = source :: rest ∧ tree.cost? source = some 0 ∧
      tree.time? source = some start ∧
      (Scalar.isFinite start = true → (tree.time? source).map (· - start) = some 0)
  sorted : tree.reached.toList.Pairwise fun first second =>
    ∃ less more, tree.cost? first = some less ∧ tree.cost? second = some more ∧ less ≤ more
  ranked : cost.RaisesFrom graph source start →
    tree.reached.toList.Pairwise fun first second =>
      ∃ less more, tree.cost? first = some less ∧ tree.cost? second = some more ∧
        (less < more ∨ less ≤ more ∧ more ≤ less ∧ first < second)

section Answers

variable {query : Search.Query α} {scratch : Search.Scratch α} {final : Search.State α}
  {tree : PathTree α} (wellFormed : query.graph.WellFormed)
  (inside : query.source < query.graph.size) (noGoal : query.goal = none)
  (blank : Search.Blank query.graph.size scratch) (ran : Search.run query scratch = .ok final)
  (answers : Answers query final tree)

include wellFormed inside noGoal blank ran answers

/-- A node on record is reported with what its label says. -/
theorem Answers.reports_of_mem {node : Nat} (member : node ∈ tree.reached.toList) :
    tree.time? node = some (final.labels.get node).time ∧
      tree.cost? node = some (final.labels.get node).cost := by
  have rooted := Search.run_rooted wellFormed inside noGoal blank ran
  rw [answers.reached_eq] at member
  rcases answers.reports wellFormed inside rooted ((rooted.mem_iff node).mp member) with
    ⟨time, spent, -⟩
  exact ⟨time, spent⟩

/-- A source that is not pruned is the first node on record. -/
theorem Answers.reached_eq_cons
    (kept : query.bounds.prunes (query.start - query.start) 0 = false) :
    ∃ rest, tree.reached.toList = query.source :: rest ∧ tree.cost? query.source = some 0 ∧
      tree.time? query.source = some query.start := by
  have rooted := Search.run_rooted wellFormed inside noGoal blank ran
  rcases Search.run_begins inside noGoal blank ran kept with ⟨rest, record⟩
  rw [← answers.reached_eq] at record
  rcases answers.reports_of_mem wellFormed inside noGoal blank ran
    (record ▸ List.mem_cons_self ..) with ⟨time, spent⟩
  have origin := rooted.origin_arrival
  exact ⟨rest, record, spent.trans (congrArg some (congrArg Arrival.cost origin)),
    time.trans (congrArg some (congrArg Arrival.time origin))⟩

/-- An order in which nodes are settled is one in which they are reported. -/
theorem Answers.pairwise_reached (Before : Frontier.Entry α → Frontier.Entry α → Prop)
    (settled : final.settled.toList.Pairwise fun first second =>
      Before (final.entry first) (final.entry second)) :
    tree.reached.toList.Pairwise fun first second =>
      ∃ less more, tree.cost? first = some less ∧ tree.cost? second = some more ∧
        Before ⟨less, first⟩ ⟨more, second⟩ := by
  rw [← answers.reached_eq] at settled
  refine settled.imp_of_mem fun {first second} firstMember secondMember before => ?_
  exact ⟨_, _, (answers.reports_of_mem wellFormed inside noGoal blank ran firstMember).2,
    (answers.reports_of_mem wellFormed inside noGoal blank ran secondMember).2, before⟩

end Answers

variable {graph : Graph α} {cost : CostModel α} {landmarks : Option (Landmarks α)}
  {source : Nat} {start : α} {bounds : SearchBounds α} {scratch : Search.Scratch α}
  {final : Search.State α} {tree : PathTree α}

/-- The answer of a search without a goal is in order. -/
theorem Answers.reachesInOrder [Sorted α] (wellFormed : graph.WellFormed)
    (inside : source < graph.size) (blank : Search.Blank graph.size scratch)
    (ran : Search.run (queryOn graph cost landmarks source start bounds none) scratch = .ok final)
    (answers : Answers (queryOn graph cost landmarks source start bounds none) final tree)
    (nonneg : cost.IsNonnegativeFrom graph source start) :
    ReachesInOrder graph cost source start bounds tree := by
  let query := queryOn graph cost landmarks source start bounds none
  have isOpen : query.IsOpen := ⟨⟨wellFormed, inside, nonneg⟩, rfl, fun _ => rfl⟩
  have rooted : Search.Rooted query final :=
    Search.run_rooted wellFormed inside rfl blank ran
  have distinct : tree.reached.toList.Nodup := by
    rw [answers.reached_eq]
    exact rooted.distinct
  refine ⟨distinct, fun node => ?reported, fun kept => ?begins, ?sorted, fun raises => ?ranked⟩
  case reported => exact (answers.isReached_iff_mem wellFormed inside rooted).symm
  case begins =>
    rcases answers.reached_eq_cons wellFormed inside rfl blank ran kept with
      ⟨rest, record, spent, time⟩
    refine ⟨rest, record, spent, time, fun finite => ?_⟩
    have time : tree.time? source = some start := time
    rw [time, Option.map_some, Sorted.sub_self finite]
  case sorted =>
    exact answers.pairwise_reached wellFormed inside rfl blank ran
      (fun first second => first.key ≤ second.key)
      (Search.run_settling isOpen isOpen.respects_le blank ran)
  case ranked =>
    have noLater := answers.pairwise_reached wellFormed inside rfl blank ran Frontier.Entry.NoLater
      (Search.run_settling isOpen (query.respects_noLater raises) blank ran)
    refine (noLater.and distinct).imp ?_
    rintro first second ⟨⟨less, more, isLess, isMore, before⟩, apart⟩
    refine ⟨less, more, isLess, isMore, before.imp_right ?_⟩
    rintro ⟨atMost, atLeast, nodes⟩
    exact ⟨atMost, atLeast, lt_of_le_of_ne nodes apart⟩

end PathTree

namespace MatrixBuilder

/-- A row of a sparse matrix that names no node twice and begins with its own. -/
structure BeginsAtHome (source : Nat) (start maxDistance : α) (row : SparseRow α) : Prop where
  once : (row.map (·.node)).Nodup
  begins : ¬ maxDistance ≤ 0 → ∃ time rest, row = ⟨source, time⟩ :: rest ∧
    (Scalar.isFinite start = true → time = 0)

/-- The rows of a sparse matrix keep the order of the search. -/
theorem IsNeighbourhood.beginsAtHome [Sorted α] {builder : MatrixBuilder α}
    (wellFormed : builder.graph.WellFormed) {maxDistance departure : α} {source : Nat}
    (inside : source < builder.graph.size) {row : SparseRow α}
    (neighbourhood : builder.IsNeighbourhood maxDistance departure source row) :
    BeginsAtHome source departure maxDistance row := by
  rcases neighbourhood with ⟨scratch, final, answered, blank, ran, answers, rfl⟩
  constructor
  case once =>
    have rooted : Search.Rooted _ final :=
      Search.run_rooted wellFormed inside rfl blank ran
    refine (reachedTimes_sublist departure answered).nodup ?_
    rw [answers.reached_eq]
    exact rooted.distinct
  case begins =>
    intro far
    have kept : (SearchBounds.maxDistance maxDistance).prunes (departure - departure) 0 = false :=
      decide_eq_false far
    rcases answers.reached_eq_cons wellFormed inside rfl blank ran kept with
      ⟨rest, record, -, time⟩
    have record : answered.reached.toList = source :: rest := record
    have time : answered.time? source = some departure := time
    refine ⟨departure - departure, rest.filterMap fun node =>
      (answered.time? node).map fun time => ⟨node, time - departure⟩, ?_, Sorted.sub_self⟩
    rw [reachedTimes, record, List.filterMap_cons, time]
    rfl

end MatrixBuilder

namespace PathTree

variable {graph : Graph α} {cost : CostModel α} {landmarks : Option (Landmarks α)}
  {tree : PathTree α}

/-- Where no link has a negative cost, a search without a goal reports nodes in order, and so
do the rows of a sparse matrix. -/
theorem calculate_reachesInOrder [Sorted α] (wellFormed : graph.WellFormed)
    (priced : ∀ link ∈ graph.links, cost.prices link = true)
    (used : Used graph cost landmarks tree) {source : Nat} (inside : source < graph.size)
    (start : α) (nonneg : cost.IsNonnegativeFrom graph source start) (bounds : SearchBounds α)
    (known : ∀ targets ∈ bounds.awaited, ∀ target ∈ targets, target < graph.size) :
    (∃ answered, tree.calculate source start bounds = .ok answered ∧
      ReachesInOrder graph cost source start bounds answered) ∧
    ∀ workers, 0 < workers → ∀ maxDistance,
      ∃ matrix, MatrixBuilder.sparseMatrix ⟨graph, cost, workers, landmarks⟩ maxDistance start =
          .ok matrix ∧
        ∀ origin < graph.size, ∃ row, matrix.row? origin = some row ∧
          MatrixBuilder.BeginsAtHome origin start maxDistance row := by
  constructor
  · rcases used.calculate_ok wellFormed priced inside start bounds known with
      ⟨_, _, answered, blank, ran, done, answers⟩
    exact ⟨answered, done, answers.reachesInOrder wellFormed inside blank ran nonneg⟩
  · intro workers staffed maxDistance
    let builder : MatrixBuilder α := ⟨graph, cost, workers, landmarks⟩
    rcases (MatrixBuilder.sparseMatrix_rows wellFormed priced staffed maxDistance start :
        ∃ matrix, builder.sparseMatrix maxDistance start = .ok matrix ∧
          builder.HasRows maxDistance start (List.range graph.size) matrix) with
      ⟨matrix, done, hasRows⟩
    refine ⟨matrix, done, fun origin inside => ?_⟩
    rcases hasRows.rows origin (List.mem_range.mpr inside) with ⟨row, found, neighbourhood⟩
    exact ⟨row, found, neighbourhood.beginsAtHome wellFormed inside⟩

end PathTree

/-! ## Ties -/

namespace Graph

/-- Two links of the same cost from one node, the first of them to the node with the larger
number, and a third link that goes on from the other one at a speed. -/
def fork (speed : α) : Graph α where
  identity := 0
  nodes := #[⟨0, "a", ⟨0, 0⟩⟩, ⟨1, "b", ⟨Scalar.ofNat 1, Scalar.ofNat 1⟩⟩,
    ⟨2, "c", ⟨Scalar.ofNat 1, 0⟩⟩, ⟨3, "d", ⟨0, Scalar.ofNat 1⟩⟩]
  links := #[⟨0, "ad", 0, 3, Scalar.ofNat 1, Scalar.ofNat 1, none⟩,
    ⟨1, "ac", 0, 2, Scalar.ofNat 1, Scalar.ofNat 1, none⟩,
    ⟨2, "cb", 2, 1, Scalar.ofNat 1, speed, none⟩]
  positions := ∅
  outgoing := FirstOut.ofKeys 4 [0, 0, 2]
  incoming := FirstOut.ofKeys 4 [3, 2, 1]

theorem fork_wellFormed (speed : α) : (fork speed).WellFormed where
  node_index := by
    intro position node found
    rcases position with _ | _ | _ | _ | position <;> simp [fork] at found <;> simp [← found]
  link_index := by
    intro position link found
    rcases position with _ | _ | _ | position <;> simp [fork] at found <;> simp [← found]
  origin_lt := by simp [fork]
  destination_lt := by simp [fork]
  outgoing_eq := rfl
  incoming_eq := rfl

end Graph

namespace PathTree

theorem calculate_reachesInOrder_fork :
    let graph : Graph (Exact ℚ) := .fork (1 : ℚ)
    CostModel.freeSpeed.RaisesFrom graph 0 (28800 : ℚ) ∧
    ∃ answered, (make graph .freeSpeed).calculate 0 (28800 : ℚ) .unbounded = .ok answered ∧
      ReachesInOrder graph .freeSpeed 0 (28800 : ℚ) .unbounded answered ∧
      answered.reached.toList = [0, 2, 3, 1] := by
  intro graph
  have pos : ∀ link ∈ graph.links, 0 < link.length / link.freeSpeed := by
    decide +kernel
  have nonneg : CostModel.freeSpeed.IsNonnegativeFrom graph 0 (28800 : ℚ) :=
    CostModel.isNonnegativeFrom_of_nonneg
      (fun link member _ => Exact.le_of_lt (pos link member)) 0 (28800 : ℚ)
  have used : Used graph .freeSpeed none (make graph .freeSpeed) := .make
  rcases (calculate_reachesInOrder (Graph.fork_wellFormed _) (fun _ _ => rfl) used
      (by decide : 0 < 4) (28800 : ℚ) nonneg .unbounded nofun).1 with ⟨answered, done, inOrder⟩
  have found : ((make graph .freeSpeed).calculateWithin 5 0 (28800 : ℚ) .unbounded).map
      (·.reached.toList) = some [0, 2, 3, 1] := by
    decide +kernel
  exact ⟨CostModel.raisesFrom_of_pos (fun link member _ => pos link member) 0 _,
    answered, done, inOrder, eq_of_calculateWithin found done⟩

/-- Doubles are rounded: the last link of the fork costs something, and its end still has
the cost of its origin, after which it is settled in spite of its number.  And on a journey
that begins at an infinite time nothing lasts zero seconds. -/
theorem fork_out_of_order :
    let graph : Graph Float := .fork (Scalar.ofNat (10 ^ 300))
    (∀ link ∈ graph.links, ∀ time, 0 < CostModel.freeSpeed.disutility link time) ∧
    (∃ answered, (make graph .freeSpeed).calculate 0 0 .unbounded = .ok answered ∧
      answered.reached.toList = [0, 2, 1, 3] ∧
      answered.cost? 2 = some (Scalar.ofNat 1) ∧ answered.cost? 1 = some (Scalar.ofNat 1)) ∧
    ∃ answered, (make graph .freeSpeed).calculate 0 Scalar.infinity .unbounded = .ok answered ∧
      answered.reached.toList = [0, 2, 1, 3] ∧
      (answered.time? 0).map (fun time => decide (time - Scalar.infinity = 0)) = some false := by
  intro graph
  have positive : ∀ link ∈ graph.links, (0 : Float) < link.length / link.freeSpeed := by
    decide +kernel
  have ordered : ((make graph .freeSpeed).calculateWithin 5 0 0 .unbounded).any
      (fun tree => decide (tree.reached.toList = [0, 2, 1, 3] ∧
        tree.cost? 2 = some (Scalar.ofNat 1) ∧ tree.cost? 1 = some (Scalar.ofNat 1))) = true := by
    decide +kernel
  have endless : ((make graph .freeSpeed).calculateWithin 5 0 Scalar.infinity .unbounded).any
      (fun tree => decide (tree.reached.toList = [0, 2, 1, 3] ∧
        (tree.time? 0).map (fun time => decide (time - Scalar.infinity = 0)) = some false)) =
          true := by
    decide +kernel
  rcases exists_of_calculateWithin ordered with ⟨answered, done, facts⟩
  rcases exists_of_calculateWithin endless with ⟨other, otherDone, otherFacts⟩
  exact ⟨fun link member _ => positive link member, ⟨answered, done, of_decide_eq_true facts⟩,
    other, otherDone, of_decide_eq_true otherFacts⟩

end PathTree

end JourneyTimes
