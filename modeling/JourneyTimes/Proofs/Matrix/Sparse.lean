import JourneyTimes.Matrix.Builder
import JourneyTimes.Proofs.Pool.Batch
import JourneyTimes.Proofs.Search.EarliestArrival
import JourneyTimes.Proofs.Search.Fresh

/-!
# Rows of sparse matrices

The workers of a builder answer one search for every node.  Where the cost model
prices every link, none of these searches fails, whichever worker it falls to and
whatever that worker has been asked before, so every node gets its row.
-/

namespace JourneyTimes

/-! ## Writing rows -/

namespace SparseMatrix

variable {α : Type} {matrix : SparseMatrix α}

/-- Everything that writing a row does. -/
theorem setRow_eq_ok {origin : Nat} {row : SparseRow α} {next : SparseMatrix α} :
    matrix.setRow origin row = .ok next ↔
      origin < matrix.rows.size ∧ next = ⟨matrix.rows.setIfInBounds origin (some row)⟩ := by
  unfold setRow
  split_ifs with inside
  · simp [inside, eq_comm]
  · simp [inside]

theorem setRow_ok {origin : Nat} (inside : origin < matrix.rows.size) (row : SparseRow α) :
    ∃ next, matrix.setRow origin row = .ok next ∧ next.rows.size = matrix.rows.size ∧
      ∀ other, next.row? other = if other = origin then some row else matrix.row? other := by
  refine ⟨_, if_pos inside, Array.size_setIfInBounds .., ?_⟩
  intro other
  rw [row?, Array.getElem?_setIfInBounds]
  by_cases same : other = origin
  · rw [if_pos same, if_pos same.symm, if_pos inside]
    rfl
  · rw [if_neg same, if_neg (Ne.symm same)]
    rfl

end SparseMatrix

namespace MatrixBuilder

variable {α : Type} [Scalar α] {builder : MatrixBuilder α}

/-! ## Workers -/

/-- The workers of a builder are path trees of its graph and cost model. -/
theorem used_tree (builder : MatrixBuilder α) :
    PathTree.Used builder.graph builder.cost builder.landmarks builder.tree := by
  rw [tree]
  cases builder.landmarks with
  | none => exact .make
  | some landmarks => exact .withLandmarks landmarks

theorem startPool_idle (staffed : 0 < builder.workers) :
    ∃ pool, builder.startPool = .ok pool ∧
      pool.Idle (PathTree.Used builder.graph builder.cost builder.landmarks) := by
  apply WorkerPool.make_idle
  · rw [Ne, List.replicate_eq_nil_iff]
    exact Nat.ne_of_gt staffed
  · intro tree member
    rw [List.eq_of_mem_replicate member]
    exact builder.used_tree

/-! ## Neighbourhoods -/

/-- A row holds what a search from a node reports, up to a distance. -/
def IsNeighbourhood (builder : MatrixBuilder α) (maxDistance departure : α) (source : Nat)
    (row : SparseRow α) : Prop :=
  let query := PathTree.queryOn builder.graph builder.cost builder.landmarks source departure
    (.maxDistance maxDistance) none
  ∃ scratch final answered, Search.Blank builder.graph.size scratch ∧
    Search.run query scratch = .ok final ∧ PathTree.Answers query final answered ∧
    row = reachedTimes departure answered

/-- A row holds what any path tree reports, whatever it was asked before. -/
theorem IsNeighbourhood.eq_reachedTimes {maxDistance departure : α} {source : Nat}
    {row : SparseRow α} (neighbourhood : builder.IsNeighbourhood maxDistance departure source row)
    {tree answered : PathTree α}
    (used : PathTree.Used builder.graph builder.cost builder.landmarks tree)
    (done : tree.calculate source departure (.maxDistance maxDistance) = .ok answered) :
    row = reachedTimes departure answered := by
  rcases neighbourhood with ⟨scratch, final, other, blank, ran, answers, rfl⟩
  rcases used.ready.answers_of_search (PathTree.search_of_calculate done) with
    ⟨_, last, lastBlank, lastRan, lastAnswers⟩
  rcases Search.exists_alike_of_run _ blank lastBlank ran with ⟨same, sameRan, alike⟩
  obtain rfl : last = same := Except.ok.inj (lastRan.symm.trans sameRan)
  have trees := answers.alike lastAnswers alike
  rw [reachedTimes, reachedTimes, trees.reached_eq]
  simp only [trees.time?_eq]

theorem mem_reachedTimes {departure : α} {tree : PathTree α} {entry : NodeTime α} :
    entry ∈ reachedTimes departure tree ↔ entry.node ∈ tree.reached.toList ∧
      (tree.time? entry.node).map (· - departure) = some entry.time := by
  rw [reachedTimes, List.mem_filterMap]
  constructor
  · rintro ⟨node, member, found⟩
    rcases Option.map_eq_some_iff.mp found with ⟨time, timed, rfl⟩
    exact ⟨member, by rw [timed]; rfl⟩
  · rintro ⟨member, found⟩
    rcases Option.map_eq_some_iff.mp found with ⟨time, timed, timeEq⟩
    refine ⟨entry.node, member, ?_⟩
    rw [timed, Option.map_some, timeEq]

/-- Entries come in the order in which the search has settled their nodes. -/
theorem reachedTimes_sublist (departure : α) (tree : PathTree α) :
    ((reachedTimes departure tree).map (·.node)).Sublist tree.reached.toList := by
  rw [reachedTimes]
  induction tree.reached.toList with
  | nil => exact .slnil
  | cons node nodes ih =>
      rw [List.filterMap_cons]
      cases tree.time? node with
      | none => exact ih.cons node
      | some time => exact ih.cons_cons node

/-- The task of a row succeeds with every worker. -/
theorem neighbourhoodJob_ok (wellFormed : builder.graph.WellFormed)
    (priced : ∀ link ∈ builder.graph.links, builder.cost.prices link = true)
    (maxDistance departure : α) {source : Nat} (inside : source < builder.graph.size)
    {tree : PathTree α} (used : PathTree.Used builder.graph builder.cost builder.landmarks tree) :
    ∃ row left, (neighbourhoodJob maxDistance departure).work source tree = (.ok row, left) ∧
      PathTree.Used builder.graph builder.cost builder.landmarks left ∧
      builder.IsNeighbourhood maxDistance departure source row := by
  rcases used.calculate_ok wellFormed priced inside departure (.maxDistance maxDistance) nofun
    with ⟨scratch, final, answered, blank, ran, calculated, answers⟩
  refine ⟨reachedTimes departure answered, answered, ?_, used.calculate calculated,
    scratch, final, answered, blank, ran, answers, rfl⟩
  simp only [neighbourhoodJob, ask, calculated]

/-- A matrix has the rows of some nodes, and a place for the rows of all others. -/
structure HasRows (builder : MatrixBuilder α) (maxDistance departure : α) (sources : List Nat)
    (matrix : SparseMatrix α) : Prop where
  size : matrix.rows.size = builder.graph.size
  rows : ∀ source ∈ sources, ∃ row, matrix.row? source = some row ∧
    builder.IsNeighbourhood maxDistance departure source row

theorem HasRows.setRow {maxDistance departure : α} {sources : List Nat}
    {matrix : SparseMatrix α} (hasRows : builder.HasRows maxDistance departure sources matrix)
    {source : Nat} (inside : source < builder.graph.size) {row : SparseRow α}
    (neighbourhood : builder.IsNeighbourhood maxDistance departure source row) :
    ∃ next, matrix.setRow source row = .ok next ∧
      builder.HasRows maxDistance departure (sources ++ [source]) next := by
  rcases SparseMatrix.setRow_ok (lt_of_lt_of_eq inside hasRows.size.symm) row with
    ⟨next, written, nextSize, nextRows⟩
  refine ⟨next, written, nextSize.trans hasRows.size, ?_⟩
  intro other member
  rw [nextRows]
  by_cases same : other = source
  · rw [if_pos same, same]
    exact ⟨row, rfl, neighbourhood⟩
  · rw [if_neg same]
    rcases List.mem_append.mp member with old | new
    · exact hasRows.rows other old
    · exact absurd (List.mem_singleton.mp new) same

/-- Every node has a row, which holds what a search from it reports. -/
theorem sparseMatrix_rows (wellFormed : builder.graph.WellFormed)
    (priced : ∀ link ∈ builder.graph.links, builder.cost.prices link = true)
    (staffed : 0 < builder.workers) (maxDistance departure : α) :
    ∃ matrix, builder.sparseMatrix maxDistance departure = .ok matrix ∧
      builder.HasRows maxDistance departure (List.range builder.graph.size) matrix := by
  rcases startPool_idle staffed with ⟨pool, started, idle⟩
  have begins : builder.HasRows maxDistance departure [] (SparseMatrix.make builder.graph.size) :=
    ⟨Array.size_replicate, nofun⟩
  have submitted : ∃ matrix, (pool.submit (neighbourhoodJob maxDistance departure)
      (List.range builder.graph.size) (SparseMatrix.make builder.graph.size)).1 = .ok matrix ∧
      builder.HasRows maxDistance departure (List.range builder.graph.size) matrix := by
    apply idle.submit begins
    intro sources source matrix member hasRows tree used
    have inside := List.mem_range.mp member
    rcases neighbourhoodJob_ok wellFormed priced maxDistance departure inside used with
      ⟨row, left, worked, leftUsed, neighbourhood⟩
    rcases hasRows.setRow inside neighbourhood with ⟨next, written, nextHasRows⟩
    exact ⟨row, left, next, worked, leftUsed, written, nextHasRows⟩
  rcases submitted with ⟨matrix, done, hasRows⟩
  refine ⟨matrix, ?_, hasRows⟩
  rw [sparseMatrix, started, ok_bind]
  exact done

end MatrixBuilder

end JourneyTimes
