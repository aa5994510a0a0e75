import JourneyTimes.Proofs.Matrix.Agreement
import JourneyTimes.Proofs.Network.Grid
import JourneyTimes.Proofs.Run.Agreement

/-!
# Skims of grid cities

Whoever drives through a grid city goes along columns and rows, and no way between two
crossings has fewer blocks than there are between them.  Of the many ways with just as many
blocks it does not matter which one a search finds: they are equally long and take equally
long.
-/

namespace JourneyTimes

open Network (GridPlan)
open Network.GridPlan (blocks)

variable {K : Type} [Field K] [LinearOrder K] [FloorRing K] [Trigonometry K]

/-- A grid city the streets of which have a number for their length and one for their speed. -/
def Network.GridPlan.ofNumbers (columns rows : Nat) (spacing freeSpeed : K) :
    GridPlan (Exact K) :=
  ⟨columns, rows, spacing, freeSpeed⟩

/-- The cell of two crossings holds the time for as many blocks as there are between them. -/
def Matrix.IsOfGrid (matrix : Matrix String (Exact K)) (plan : GridPlan (Exact K))
    (spacing freeSpeed : K) : Prop :=
  ∀ origin destination, plan.HasCrossing origin → plan.HasCrossing destination →
    matrix.get? (plan.crossingId origin) (plan.crossingId destination) =
      some ((blocks origin destination * spacing / freeSpeed : K) : Exact K)

/-- There are rows for the crossings only.  The row of each of them has one entry for every
crossing that is nearer than a limit, with the time for as many blocks as there are between the
two, and no other entry. -/
structure SparseMatrix.IsOfGrid (matrix : SparseMatrix (Exact K)) (plan : GridPlan (Exact K))
    (spacing freeSpeed : K) (limit : Exact K) : Prop where
  size_eq : matrix.rows.size = plan.rows * plan.columns
  rows : ∀ origin, plan.HasCrossing origin → ∃ row,
    matrix.row? (plan.number origin) = some row ∧ (row.map (·.node)).Nodup ∧
    ∀ entry, entry ∈ row ↔ ∃ destination, plan.HasCrossing destination ∧
      ((blocks origin destination * spacing : K) : Exact K) < limit ∧
      entry = ⟨plan.number destination, (blocks origin destination * spacing / freeSpeed : K)⟩

/-- Where every crossing is a zone, its central node is the one with its number. -/
theorem Graph.IsGrid.mem_ofNodes {α : Type} {graph : Graph α} {plan : GridPlan α}
    (isGrid : graph.IsGrid plan) {identity : Nat} {network : Network α}
    (made : Graph.ofNetwork identity network = .ok graph) {zone : String × Nat} :
    zone ∈ (CentralNodes.ofNodes graph).toList ↔ ∃ crossing, plan.HasCrossing crossing ∧
      zone = (plan.crossingId crossing, plan.number crossing) := by
  rcases zone with ⟨id, node⟩
  rw [CentralNodes.mem_ofNodes made, isGrid.nodeIndex?_eq]
  constructor
  · rintro ⟨inside, rfl⟩
    refine ⟨plan.crossingAt node, GridPlan.hasCrossing_crossingAt inside, ?_⟩
    have same := GridPlan.number_crossingAt plan node
    exact Prod.ext (congrArg toString same.symm) same.symm
  · rintro ⟨crossing, inside, same⟩
    cases same
    exact ⟨GridPlan.number_lt inside, rfl⟩

variable [IsStrictOrderedRing K] {plan : GridPlan (Exact K)} {graph : Graph (Exact K)}
  {spacing freeSpeed : K} {landmarks : Option (Landmarks (Exact K))} {start : K}

section

variable (isGrid : graph.IsGrid plan)
  (uniform : CostModel.freeSpeed.IsUniform graph spacing (spacing / freeSpeed))

include isGrid uniform

/-- What a path tree lists and reports of a grid city: the crossings that are not excluded after
as many blocks as there are to them, and the times for so many blocks. -/
theorem PathTree.Answers.reports_grid {origin : Nat × Nat} (inside : plan.HasCrossing origin)
    {bounds : SearchBounds (Exact K)} (noTargets : bounds.awaited = none)
    {scratch : Search.Scratch (Exact K)} {final : Search.State (Exact K)}
    (blank : Search.Blank graph.size scratch)
    (ran : Search.run
      (queryOn graph .freeSpeed landmarks (plan.number origin) (start : Exact K) bounds none)
      scratch = .ok final)
    {swept : PathTree (Exact K)}
    (answers : Answers
      (queryOn graph .freeSpeed landmarks (plan.number origin) (start : Exact K) bounds none)
      final swept) :
    swept.reached.toList.Nodup ∧
    (∀ node ∈ swept.reached.toList, node < plan.rows * plan.columns) ∧
    ∀ destination, plan.HasCrossing destination →
      (plan.number destination ∈ swept.reached.toList ↔
        bounds.prunesAfter spacing (spacing / freeSpeed) (blocks origin destination) = false) ∧
      (plan.number destination ∈ swept.reached.toList →
        (swept.time? (plan.number destination)).map (· - (start : Exact K)) =
          some ((blocks origin destination * spacing / freeSpeed : K) : Exact K)) := by
  rcases answers.reports_kept isGrid.wellFormed uniform (isGrid.isLevelling inside)
      (isGrid.number_lt_size inside) noTargets blank ran with
    ⟨nodup, reached, times⟩
  rw [isGrid.size_eq] at reached
  refine ⟨nodup, fun node member => ((reached node).mp member).1, ?_⟩
  intro destination destinationInside
  have same := GridPlan.crossingAt_number destinationInside
  constructor
  · rw [reached, same, and_iff_right (GridPlan.number_lt destinationInside)]
  · intro member
    rw [times _ member, same, Option.map_some, Exact.finite_sub_finite, add_sub_cancel_left,
      mul_div_assoc]

/-- A path tree reports how long it takes to drive to any crossing. -/
theorem PathTree.Used.calculate_grid {tree : PathTree (Exact K)}
    (used : Used graph .freeSpeed landmarks tree) {origin : Nat × Nat}
    (inside : plan.HasCrossing origin) (start : K) :
    ∃ swept, tree.calculate (plan.number origin) (start : Exact K) .unbounded = .ok swept ∧
      ∀ destination, plan.HasCrossing destination →
        (swept.time? (plan.number destination)).map (· - (start : Exact K)) =
          some ((blocks origin destination * spacing / freeSpeed : K) : Exact K) := by
  rcases used.calculate_ok isGrid.wellFormed uniform.priced (isGrid.number_lt_size inside)
    (start : Exact K) .unbounded nofun with ⟨_, final, swept, blank, ran, done, answers⟩
  rcases answers.reports_grid isGrid uniform inside rfl blank ran with ⟨-, -, reports⟩
  refine ⟨swept, done, ?_⟩
  intro destination destinationInside
  rcases reports destination destinationInside with ⟨listed, elapsed⟩
  exact elapsed (listed.mpr rfl)

end

namespace MatrixBuilder

section

variable (isGrid : graph.IsGrid plan)
  (uniform : CostModel.freeSpeed.IsUniform graph spacing (spacing / freeSpeed))
  {workers : Nat} (staffed : 0 < workers)

include isGrid uniform staffed

theorem denseMatrix_grid {identity : Nat} {network : Network (Exact K)}
    (made : Graph.ofNetwork identity network = .ok graph) :
    ∃ matrix, (⟨graph, .freeSpeed, workers, landmarks⟩ : MatrixBuilder (Exact K)).denseMatrix
        (CentralNodes.ofNodes graph).toList (start : Exact K) = .ok matrix ∧
      matrix.IsOfGrid plan spacing freeSpeed := by
  let builder : MatrixBuilder (Exact K) := ⟨graph, .freeSpeed, workers, landmarks⟩
  have nodup := CentralNodes.nodup_zones (CentralNodes.ofNodes graph)
  have swept {origin : Nat × Nat} (inside : plan.HasCrossing origin) :=
    builder.used_tree.calculate_grid isGrid uniform inside start
  have exists_matrix : ∃ matrix, builder.denseMatrix (CentralNodes.ofNodes graph).toList
      (start : Exact K) = .ok matrix := by
    rw [denseMatrix_ok_iff staffed nodup]
    intro origin member
    rcases (isGrid.mem_ofNodes made).mp member with ⟨crossing, inside, rfl⟩
    rcases swept inside with ⟨found, calculated, times⟩
    refine ⟨found, calculated, fun destination destinationMember => ?_⟩
    rcases (isGrid.mem_ofNodes made).mp destinationMember with ⟨other, otherInside, rfl⟩
    rw [← Option.isSome_map, times other otherInside, Option.isSome_some]
  rcases exists_matrix with ⟨matrix, dense⟩
  refine ⟨matrix, dense, fun origin destination inside destinationInside => ?_⟩
  rcases denseMatrix_cell nodup dense ((isGrid.mem_ofNodes made).mpr ⟨origin, inside, rfl⟩)
      ((isGrid.mem_ofNodes made).mpr ⟨destination, destinationInside, rfl⟩) with
    ⟨found, time, calculated, timed, cell⟩
  rcases swept inside with ⟨same, sameCalculated, times⟩
  obtain rfl : same = found := Except.ok.inj (sameCalculated.symm.trans calculated)
  have elapsed := times destination destinationInside
  rw [timed, Option.map_some] at elapsed
  rw [cell, Option.some.inj elapsed]
  rfl

theorem sparseMatrix_grid {limit : Exact K} (defined : limit ≠ .undefined) :
    ∃ matrix, (⟨graph, .freeSpeed, workers, landmarks⟩ : MatrixBuilder (Exact K)).sparseMatrix
        limit (start : Exact K) = .ok matrix ∧
      matrix.IsOfGrid plan spacing freeSpeed limit := by
  let builder : MatrixBuilder (Exact K) := ⟨graph, .freeSpeed, workers, landmarks⟩
  rcases @sparseMatrix_rows _ _ builder isGrid.wellFormed uniform.priced staffed limit start with
    ⟨matrix, done, hasRows⟩
  refine ⟨matrix, done, hasRows.size.trans isGrid.size_eq, fun origin inside => ?_⟩
  rcases hasRows.rows _ (List.mem_range.mpr (isGrid.number_lt_size inside)) with
    ⟨row, found, _, final, swept, blank, ran, answers, rfl⟩
  rcases answers.reports_grid isGrid uniform inside rfl blank ran with ⟨nodup, within, reports⟩
  simp only [SearchBounds.prunesAfter_maxDistance defined] at reports
  refine ⟨_, found, (reachedTimes_sublist _ swept).nodup nodup, fun entry => ?_⟩
  rw [mem_reachedTimes]
  constructor
  · rintro ⟨member, timed⟩
    have same := GridPlan.number_crossingAt plan entry.node
    have destinationInside := GridPlan.hasCrossing_crossingAt (within entry.node member)
    rw [← same] at member timed
    rcases reports _ destinationInside with ⟨listed, elapsed⟩
    refine ⟨_, destinationInside, listed.mp member, ?_⟩
    rw [elapsed member] at timed
    exact congrArg₂ NodeTime.mk same.symm (Option.some.inj timed).symm
  · rintro ⟨destination, destinationInside, near, rfl⟩
    rcases reports destination destinationInside with ⟨listed, elapsed⟩
    exact ⟨listed.mpr near, elapsed (listed.mpr near)⟩

end

/-- Of every grid city there are a dense matrix and sparse ones, with the times that it takes
to drive along columns and rows, however many workers there are, as long as there is one. -/
theorem skims_grid (columns rows : Nat) {spacing freeSpeed : K} (spacing_pos : 0 < spacing)
    (freeSpeed_pos : 0 < freeSpeed) {workers : Nat} (staffed : 0 < workers)
    (landmarks : Option (Landmarks (Exact K))) (identity : Nat) (start : K) :
    ∃ graph, Graph.ofNetwork identity
        (Network.grid (.ofNumbers columns rows spacing freeSpeed)) = .ok graph ∧
      (∃ matrix, (⟨graph, .freeSpeed, workers, landmarks⟩ : MatrixBuilder (Exact K)).denseMatrix
          (CentralNodes.ofNodes graph).toList (start : Exact K) = .ok matrix ∧
        matrix.IsOfGrid (.ofNumbers columns rows spacing freeSpeed) spacing freeSpeed) ∧
      ∀ limit : Exact K, limit ≠ .undefined → ∃ matrix,
        (⟨graph, .freeSpeed, workers, landmarks⟩ : MatrixBuilder (Exact K)).sparseMatrix limit
          (start : Exact K) = .ok matrix ∧
        matrix.IsOfGrid (.ofNumbers columns rows spacing freeSpeed) spacing freeSpeed limit := by
  rcases (Network.grid_wellFormed (.ofNumbers columns rows spacing freeSpeed)).exists_graph
      identity with
    ⟨graph, made⟩
  have isGrid := Graph.IsGrid.of_made made
  have uniform := isGrid.isUniform rfl rfl spacing_pos freeSpeed_pos
  exact ⟨graph, made, denseMatrix_grid isGrid uniform staffed made,
    fun _ defined => sparseMatrix_grid isGrid uniform staffed defined⟩

/-- Four columns and three rows of crossings, a hundred metres apart. -/
theorem skims_grid_twelve :
    ∃ graph, Graph.ofNetwork 0
        (Network.grid (.ofNumbers 4 3 (100 : ℚ) 10)) = .ok graph ∧
      (∃ matrix, (⟨graph, .freeSpeed, 3, none⟩ : MatrixBuilder (Exact ℚ)).denseMatrix
          (CentralNodes.ofNodes graph).toList (28800 : ℚ) = .ok matrix ∧
        matrix.IsOfGrid (.ofNumbers 4 3 100 10) (100 : ℚ) 10) ∧
      ∃ matrix, (⟨graph, .freeSpeed, 3, none⟩ : MatrixBuilder (Exact ℚ)).sparseMatrix
          (250 : ℚ) (28800 : ℚ) = .ok matrix ∧
        matrix.IsOfGrid (.ofNumbers 4 3 100 10) (100 : ℚ) 10 (250 : ℚ) := by
  rcases skims_grid 4 3 (show (0 : ℚ) < 100 by norm_num) (show (0 : ℚ) < 10 by norm_num)
      (show 0 < 3 by decide) none 0 28800 with
    ⟨graph, made, dense, sparse⟩
  exact ⟨graph, made, dense, sparse (250 : ℚ) nofun⟩

/-- Without workers there is no matrix. -/
theorem denseMatrix_unstaffed {α : Type} [Scalar α] {identity : Nat} {network : Network α}
    {graph : Graph α} (made : Graph.ofNetwork identity network = .ok graph) (cost : CostModel α)
    (start : α) :
    (make graph cost 0).denseMatrix (CentralNodes.ofNodes graph).toList start =
      .error .emptyPool := by
  have checked : ((sortZones (CentralNodes.ofNodes graph).toList).map (·.2)).forM
      (make graph cost 0).graph.checkNode = .ok () := by
    refine Graph.forM_checkNode fun node member => ?_
    rcases List.mem_map.mp member with ⟨⟨id, node⟩, zone, rfl⟩
    have listed := (sortZones_perm _).mem_iff.mp zone
    exact (Graph.ofNetwork_nodeIndex? made ((CentralNodes.mem_ofNodes made).mp listed)).1
  rw [denseMatrix, checked, ok_bind]
  rfl

/-- Two crossings, between which nobody drives because there are no workers. -/
theorem skims_grid_unstaffed :
    ∃ graph, Graph.ofNetwork 0 (Network.grid (.ofNumbers 2 1 (100 : ℚ) 10)) = .ok graph ∧
      (⟨graph, .freeSpeed, 0, none⟩ : MatrixBuilder (Exact ℚ)).denseMatrix
        (CentralNodes.ofNodes graph).toList (0 : ℚ) = .error .emptyPool := by
  rcases (Network.grid_wellFormed (.ofNumbers 2 1 (100 : ℚ) 10)).exists_graph 0 with
    ⟨graph, made⟩
  exact ⟨graph, made, denseMatrix_unstaffed made .freeSpeed _⟩

end MatrixBuilder

end JourneyTimes
