import JourneyTimes.Proofs.Matrix.Sparse
import JourneyTimes.Proofs.Search.Shortcut
import JourneyTimes.Proofs.Search.Within

/-!
# Sparse matrices and shortcuts

A row of a sparse matrix should list the nodes whose least-cost path is shorter
than a distance.  It lists all of these, with their times.  It lists other nodes too,
exactly if some node has a shortcut: the search for the row does not get to the node
before it on its least-cost path, which is too far away, and takes a dearer path that
is short enough for the least-cost one.
-/

namespace JourneyTimes

variable {K : Type} [Field K] [LinearOrder K] [FloorRing K] [Trigonometry K]

namespace PathTree

/-- An entry says how long the last query takes to a node, the path to which is shorter
than a distance. -/
def IsNeighbour {α : Type} [Scalar α] (tree : PathTree α) (limit : α) (entry : NodeTime α) :
    Prop :=
  ∃ distance time, tree.distance? entry.node = some distance ∧ distance < limit ∧
    tree.time? entry.node = some time ∧ entry.time = time - tree.startTime

theorem queryOn_eq_withBounds {α : Type} [Scalar α] (graph : Graph α) (cost : CostModel α)
    (landmarks : Option (Landmarks α)) (source : Nat) (start : α) (bounds : SearchBounds α) :
    queryOn graph cost landmarks source start bounds none =
      (queryOn graph cost none source start .unbounded none).withBounds bounds := rfl

section

variable {query : Search.Query (Exact K)} {bounds : SearchBounds (Exact K)}
  {final : Search.State (Exact K)} {tree : PathTree (Exact K)}
  (answers : Answers (query.withBounds bounds) final tree) (plain : query.IsPlain)
  (chronicled : Search.Chronicled query final)

include answers plain chronicled

/-- A path tree reports what its search has settled. -/
theorem Answers.isReached_iff_settled (node : Nat) :
    tree.isReached node = true ↔ (final.labels.get node).settled = true :=
  answers.isReached_iff_of_settled fun settled =>
    ⟨Search.lt_of_waits chronicled.toSound plain.wellFormed plain.source_lt
      (chronicled.found_of_settled settled), chronicled.unpruned node settled⟩

theorem Answers.isNeighbour_iff {limit : Exact K} {entry : NodeTime (Exact K)} :
    tree.IsNeighbour limit entry ↔ (final.labels.get entry.node).settled = true ∧
      (final.labels.get entry.node).distance < limit ∧
      entry.time = (final.labels.get entry.node).time - query.start := by
  have reached := answers.isReached_iff_settled plain chronicled entry.node
  have startEq : tree.startTime = query.start := answers.start_eq
  rw [IsNeighbour, distance?, time?, answers.label_eq, startEq, ← reached]
  constructor
  · rintro ⟨distance, time, found, near, timed, timeEq⟩
    split_ifs at found timed with isReached
    cases found
    cases timed
    exact ⟨isReached, near, timeEq⟩
  · rintro ⟨isReached, near, timeEq⟩
    exact ⟨_, _, if_pos isReached, near, if_pos isReached, timeEq⟩

theorem Answers.mem_reachedTimes_iff {entry : NodeTime (Exact K)} :
    entry ∈ MatrixBuilder.reachedTimes query.start tree ↔
      (final.labels.get entry.node).settled = true ∧
        entry.time = (final.labels.get entry.node).time - query.start := by
  have reached := answers.isReached_iff_settled plain chronicled entry.node
  rw [MatrixBuilder.mem_reachedTimes, answers.reached_eq, chronicled.mem_iff, time?,
    answers.label_eq]
  apply and_congr_right
  intro settled
  rw [if_pos (reached.mpr settled), Option.map_some, Option.some_inj]
  exact eq_comm

omit plain in
theorem Answers.reachedTimes_nodup (departure : Exact K) :
    ((MatrixBuilder.reachedTimes departure tree).map (·.node)).Nodup := by
  refine (MatrixBuilder.reachedTimes_sublist departure tree).nodup ?_
  rw [answers.reached_eq]
  exact chronicled.distinct

end

section

variable {query : Search.Query (Exact K)} {bounds otherBounds : SearchBounds (Exact K)}
  {limit : Exact K} {wholeFinal partFinal : Search.State (Exact K)}
  {whole part : PathTree (Exact K)}
  (wholeAnswers : Answers (query.withBounds bounds) wholeFinal whole)
  (partAnswers : Answers (query.withBounds otherBounds) partFinal part) (plain : query.IsPlain)
  (shadows : Search.Shadows query limit wholeFinal partFinal)
  (wholeOk : Search.Chronicled query wholeFinal) (partOk : Search.Chronicled query partFinal)

include wholeAnswers partAnswers plain shadows wholeOk partOk

/-- A row lists what is near. -/
theorem mem_reachedTimes_of_isNeighbour {entry : NodeTime (Exact K)}
    (neighbour : whole.IsNeighbour limit entry) :
    entry ∈ MatrixBuilder.reachedTimes query.start part := by
  rcases (wholeAnswers.isNeighbour_iff plain wholeOk).mp neighbour with ⟨settled, near, timeEq⟩
  rcases shadows.settled_within wholeOk partOk settled near with ⟨partSettled, -, same⟩
  refine (partAnswers.mem_reachedTimes_iff plain partOk).mpr ⟨partSettled, ?_⟩
  rw [timeEq, ← Label.time_congr same]

/-- A row lists nothing else exactly if its search settles nothing that is far away. -/
theorem isNeighbour_of_mem_reachedTimes_iff :
    (∀ entry ∈ MatrixBuilder.reachedTimes query.start part, whole.IsNeighbour limit entry) ↔
      ∀ node, (partFinal.labels.get node).settled = true →
        (wholeFinal.labels.get node).distance < limit := by
  constructor
  · intro only node settled
    let entry : NodeTime (Exact K) := ⟨node, (partFinal.labels.get node).time - query.start⟩
    have listed : entry ∈ MatrixBuilder.reachedTimes query.start part :=
      (partAnswers.mem_reachedTimes_iff plain partOk).mpr ⟨settled, rfl⟩
    exact ((wholeAnswers.isNeighbour_iff plain wholeOk).mp (only entry listed)).2.1
  · intro only entry listed
    rcases (partAnswers.mem_reachedTimes_iff plain partOk).mp listed with ⟨settled, timeEq⟩
    have near := only entry.node settled
    have wholeSettled :=
      shadows.settled_of_mem plain partOk ((partOk.mem_iff entry.node).mpr settled)
    refine (wholeAnswers.isNeighbour_iff plain wholeOk).mpr ⟨wholeSettled, near, ?_⟩
    rw [timeEq, Label.time_congr (shadows.same entry.node near)]

end

end PathTree

theorem Graph.triangle_hasNonnegativeLengths :
    (Graph.triangle : Graph (Exact ℚ)).HasNonnegativeLengths := by
  intro link member
  simp [Graph.triangle] at member
  rcases member with rfl | rfl | rfl <;> decide +kernel

theorem CostModel.freeSpeed_isSteady (graph : Graph (Exact K)) :
    freeSpeed.IsSteady graph :=
  fun _ _ _ _ => ⟨rfl, rfl⟩

namespace MatrixBuilder

open PathTree

variable [IsStrictOrderedRing K] {builder : MatrixBuilder (Exact K)}

/-- Every node has a row, which lists each of the nodes with a least-cost path that is
shorter than a distance, once, with the time that this path takes.  It lists nothing else
exactly if no node has a shortcut. -/
theorem sparseMatrix_neighbours (wellFormed : builder.graph.WellFormed)
    (priced : ∀ link ∈ builder.graph.links, builder.cost.prices link = true)
    (steady : builder.cost.IsSteady builder.graph)
    (nonneg : builder.cost.IsNonnegative builder.graph)
    (lengths : builder.graph.HasNonnegativeLengths) (staffed : 0 < builder.workers)
    {limit : Exact K} (positive : 0 < limit) (start : K) :
    ∃ matrix, builder.sparseMatrix limit start = .ok matrix ∧
      matrix.rows.size = builder.graph.size ∧
      ∀ landmarks tree, Used builder.graph builder.cost landmarks tree →
        ∀ source < builder.graph.size, ∃ row whole,
          matrix.row? source = some row ∧
          tree.calculate source start .unbounded = .ok whole ∧
          (row.map (·.node)).Nodup ∧
          (∀ entry, whole.IsNeighbour limit entry → entry ∈ row) ∧
          ((∀ entry ∈ row, whole.IsNeighbour limit entry) ↔
            ∀ node, ¬ Search.HasShortcut
              (queryOn builder.graph builder.cost none source start .unbounded none)
              whole.label whole.reached.toList limit node) := by
  rcases sparseMatrix_rows wellFormed priced staffed limit (start : Exact K) with
    ⟨matrix, done, size, rows⟩
  refine ⟨matrix, done, size, ?_⟩
  intro landmarks tree used source inside
  rcases rows source (List.mem_range.mpr inside) with
    ⟨row, found, _, partFinal, part, blank, partRan, partAnswers, rowEq⟩
  rcases used.calculate_ok wellFormed priced inside (start : Exact K) .unbounded nofun with
    ⟨_, wholeFinal, whole, wholeBlank, wholeRan, wholeDone, wholeAnswers⟩
  have plain : (queryOn builder.graph builder.cost none source start .unbounded none).IsPlain :=
    isPlain_queryOn wellFormed nonneg inside start .unbounded
  rw [queryOn_eq_withBounds] at partAnswers partRan wholeAnswers wholeRan
  have shadows := Search.run_shadows plain lengths steady limit wholeBlank blank wholeRan partRan
  have wholeOk := Search.run_chronicled plain wholeBlank rfl wholeRan
  have partOk := Search.run_chronicled plain blank rfl partRan
  have onlyNear := Search.run_settled_only_within_iff plain wholeBlank
    lengths steady positive wholeRan blank partRan
  have labelEq : whole.label = _ := funext wholeAnswers.label_eq
  refine ⟨row, whole, found, wholeDone, ?_, ?_, ?_⟩
  · rw [rowEq]
    exact partAnswers.reachedTimes_nodup partOk start
  · intro entry neighbour
    rw [rowEq]
    exact mem_reachedTimes_of_isNeighbour wholeAnswers partAnswers plain shadows wholeOk partOk
      neighbour
  · rw [labelEq, wholeAnswers.reached_eq, rowEq, ← onlyNear]
    exact isNeighbour_of_mem_reachedTimes_iff wholeAnswers partAnswers plain shadows wholeOk partOk

/-- A builder that drives along the triangle. -/
def triangle : MatrixBuilder (Exact ℚ) := make Graph.triangle CostModel.freeSpeed 1

theorem sparseMatrix_neighbours_triangle :
    ∃ matrix, triangle.sparseMatrix (500 : ℚ) (0 : ℚ) = .ok matrix ∧
      matrix.rows.size = triangle.graph.size ∧
      ∀ landmarks tree, Used triangle.graph triangle.cost landmarks tree →
        ∀ source < triangle.graph.size, ∃ row whole,
          matrix.row? source = some row ∧
          tree.calculate source (0 : ℚ) .unbounded = .ok whole ∧
          (row.map (·.node)).Nodup ∧
          (∀ entry, whole.IsNeighbour (500 : ℚ) entry → entry ∈ row) ∧
          ((∀ entry ∈ row, whole.IsNeighbour (500 : ℚ) entry) ↔
            ∀ node, ¬ Search.HasShortcut
              (queryOn triangle.graph triangle.cost none source (0 : ℚ) .unbounded none)
              whole.label whole.reached.toList (500 : ℚ) node) :=
  sparseMatrix_neighbours Graph.triangle_wellFormed (fun _ _ => rfl)
    (CostModel.freeSpeed_isSteady _) CostModel.freeSpeed_isNonnegative_triangle
    Graph.triangle_hasNonnegativeLengths (by decide) (by decide +kernel) 0

/-- The row of the first node lists the last one, with the time of the short slow link, though
the least-cost path over the other node is two kilometres long. -/
theorem sparseMatrix_triangle_not_neighbour :
    ∃ matrix row whole, triangle.sparseMatrix (500 : ℚ) (0 : ℚ) = .ok matrix ∧
      matrix.row? 0 = some row ∧ ⟨2, (50 : ℚ)⟩ ∈ row ∧
      triangle.tree.calculate 0 (0 : ℚ) .unbounded = .ok whole ∧
      whole.distance? 2 = some (2000 : ℚ) ∧ whole.time? 2 = some (20 : ℚ) ∧
      ¬ whole.IsNeighbour (500 : ℚ) ⟨2, (50 : ℚ)⟩ := by
  have shown : (triangle.tree.calculateWithin 4 0 (0 : ℚ) (.maxDistance (500 : ℚ))).map
      (reachedTimes ((0 : ℚ) : Exact ℚ)) = some [⟨0, (0 : ℚ)⟩, ⟨2, (50 : ℚ)⟩] := by
    decide +kernel
  have reported : (triangle.tree.calculateWithin 4 0 (0 : ℚ) .unbounded).map
      (fun whole => (whole.distance? 2, whole.time? 2)) =
        some (some ((2000 : ℚ) : Exact ℚ), some ((20 : ℚ) : Exact ℚ)) := by
    decide +kernel
  rcases @sparseMatrix_rows _ _ triangle Graph.triangle_wellFormed (fun _ _ => rfl)
    Nat.one_pos (500 : ℚ) (0 : ℚ) with ⟨matrix, done, -, rows⟩
  rcases rows 0 (List.mem_range.mpr (by decide)) with ⟨row, found, neighbourhood⟩
  rcases Option.map_eq_some_iff.mp shown with ⟨part, partWithin, partRow⟩
  rcases Option.map_eq_some_iff.mp reported with ⟨whole, wholeWithin, read⟩
  rcases Prod.mk.inj read with ⟨distance, time⟩
  have rowEq : row = [⟨0, (0 : ℚ)⟩, ⟨2, (50 : ℚ)⟩] :=
    (neighbourhood.eq_reachedTimes triangle.used_tree (calculate_of_within partWithin)).trans
      partRow
  refine ⟨matrix, row, whole, done, found, by simp [rowEq], calculate_of_within wholeWithin,
    distance, time, ?_⟩
  rintro ⟨far, _, found, near, -, -⟩
  rw [distance] at found
  cases found
  exact absurd near (by decide +kernel)

end MatrixBuilder

end JourneyTimes
