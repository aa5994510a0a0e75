import JourneyTimes.Network.Grid
import JourneyTimes.Proofs.Network.WellFormed
import JourneyTimes.Proofs.Search.Hops
import Std.Data.String.ToNat

/-!
# Grid cities

The crossings of a grid city are numbered row after row, and there are as many as numbers.
Streets lead from a crossing to those one block away.  So the number of links that it takes
from one crossing to another is the number of blocks between them, counted along columns and
rows.
-/

namespace JourneyTimes

namespace Network

namespace GridPlan

variable {α : Type}

/-- Whether there is a crossing at a column and a row. -/
def HasCrossing (plan : GridPlan α) (crossing : Nat × Nat) : Prop :=
  crossing.1 < plan.columns ∧ crossing.2 < plan.rows

/-- The number of a crossing. -/
def number (plan : GridPlan α) (crossing : Nat × Nat) : Nat :=
  crossing.2 * plan.columns + crossing.1

/-- The crossing with a number. -/
def crossingAt (plan : GridPlan α) (number : Nat) : Nat × Nat :=
  (number % plan.columns, number / plan.columns)

/-- The number of blocks between two crossings, along columns and rows. -/
def blocks (first second : Nat × Nat) : Nat :=
  ((first.1 : ℤ) - second.1).natAbs + ((first.2 : ℤ) - second.2).natAbs

variable {plan : GridPlan α}

/-! ## Numbers of crossings -/

theorem mem_crossings {crossing : Nat × Nat} :
    crossing ∈ plan.crossings ↔ plan.HasCrossing crossing := by
  rcases crossing with ⟨column, row⟩
  simp [crossings, HasCrossing, and_comm]

/-- The crossings in their order have the numbers in theirs. -/
theorem map_number_crossings (plan : GridPlan α) :
    plan.crossings.map plan.number = List.range (plan.rows * plan.columns) := by
  rw [crossings]
  induction plan.rows with
  | zero => simp
  | succ rows ih =>
      rw [List.range_succ, List.flatMap_append, List.map_append, ih, Nat.succ_mul,
        List.range_add]
      simp [number, Function.comp_def]

theorem number_lt {crossing : Nat × Nat} (inside : plan.HasCrossing crossing) :
    plan.number crossing < plan.rows * plan.columns := by
  rw [← List.mem_range, ← map_number_crossings]
  exact List.mem_map_of_mem (mem_crossings.mpr inside)

theorem crossingAt_number {crossing : Nat × Nat} (inside : plan.HasCrossing crossing) :
    plan.crossingAt (plan.number crossing) = crossing := by
  have positive : 0 < plan.columns := Nat.zero_lt_of_lt inside.1
  apply Prod.ext
  · exact (Nat.mul_add_mod_self_right ..).trans (Nat.mod_eq_of_lt inside.1)
  · calc plan.number crossing / plan.columns
        = (plan.columns * crossing.2 + crossing.1) / plan.columns := by
          rw [number, Nat.mul_comm]
      _ = crossing.2 + crossing.1 / plan.columns := Nat.mul_add_div positive ..
      _ = crossing.2 := by rw [Nat.div_eq_of_lt inside.1, Nat.add_zero]

theorem number_crossingAt (plan : GridPlan α) (number : Nat) :
    plan.number (plan.crossingAt number) = number :=
  Nat.div_add_mod' number plan.columns

theorem hasCrossing_crossingAt {number : Nat} (inside : number < plan.rows * plan.columns) :
    plan.HasCrossing (plan.crossingAt number) := by
  have positive : 0 < plan.columns := Nat.pos_of_lt_mul_left inside
  exact ⟨Nat.mod_lt _ positive, Nat.div_lt_of_lt_mul (by rwa [Nat.mul_comm])⟩

/-! ## Streets -/

/-- Streets lead to the crossings one block away. -/
theorem mem_neighbours {crossing neighbour : Nat × Nat} (inside : plan.HasCrossing crossing) :
    neighbour ∈ plan.neighbours crossing ↔
      plan.HasCrossing neighbour ∧ blocks crossing neighbour = 1 := by
  rcases crossing with ⟨column, row⟩
  rcases neighbour with ⟨otherColumn, otherRow⟩
  rcases inside with ⟨columnInside, rowInside⟩
  simp only [neighbours, List.mem_append, HasCrossing, blocks] at *
  split_ifs <;> simp <;> omega

theorem blocks_le_succ {source crossing neighbour : Nat × Nat}
    (next : blocks crossing neighbour = 1) :
    blocks source neighbour ≤ blocks source crossing + 1 := by
  unfold blocks at *
  omega

/-- The last block of the way to a crossing begins at a crossing that is nearer. -/
theorem exists_nearer {source crossing : Nat × Nat} (sourceInside : plan.HasCrossing source)
    (inside : plan.HasCrossing crossing) (different : crossing ≠ source) :
    ∃ nearer, plan.HasCrossing nearer ∧ blocks nearer crossing = 1 ∧
      blocks source nearer + 1 = blocks source crossing := by
  rcases source with ⟨sourceColumn, sourceRow⟩
  rcases crossing with ⟨column, row⟩
  rw [Ne, Prod.mk.injEq, not_and_or] at different
  simp only [HasCrossing, blocks] at *
  -- One block back along the row, or along the column if that is the one of the source.
  rcases lt_trichotomy column sourceColumn with west | same | east
  · exact ⟨(column + 1, row), by dsimp only; omega⟩
  · rcases lt_trichotomy row sourceRow with north | sameRow | south
    · exact ⟨(column, row + 1), by dsimp only; omega⟩
    · omega
    · exact ⟨(column, row - 1), by dsimp only; omega⟩
  · exact ⟨(column - 1, row), by dsimp only; omega⟩

end GridPlan

/-! ## The network and its graph -/

section

variable {α : Type} [Scalar α] {plan : GridPlan α}

/-- The nodes have the numbers in their order as ids. -/
theorem nodeIds_grid (plan : GridPlan α) :
    (grid plan).nodeIds = (List.range (plan.rows * plan.columns)).map toString := by
  let nodes : List (Node α) := plan.crossings.map fun crossing =>
    ⟨plan.crossingId crossing, plan.crossingPlace crossing⟩
  have ids : nodes.map (·.id) = (List.range (plan.rows * plan.columns)).map toString := by
    rw [← GridPlan.map_number_crossings, List.map_map, List.map_map]
    rfl
  have distinct : (nodes.map (·.id)).Nodup := by
    rw [ids]
    exact List.nodup_range.map fun _ _ same => Nat.repr_injective same
  have listed := nodes_withNodes WellFormed.empty distinct fun _ _ => List.not_mem_nil
  rw [← ids, nodeIds]
  exact congrArg (List.map (·.id)) listed

theorem mem_streets {link : Link α} : link ∈ plan.streets ↔
    ∃ crossing neighbour, plan.HasCrossing crossing ∧ plan.HasCrossing neighbour ∧
      GridPlan.blocks crossing neighbour = 1 ∧ plan.street crossing neighbour = link := by
  simp only [GridPlan.streets, List.mem_flatMap, List.mem_map, GridPlan.mem_crossings]
  constructor
  · rintro ⟨crossing, inside, neighbour, next, same⟩
    rcases (GridPlan.mem_neighbours inside).mp next with ⟨neighbourInside, near⟩
    exact ⟨crossing, neighbour, inside, neighbourInside, near, same⟩
  · rintro ⟨crossing, neighbour, inside, neighbourInside, near, same⟩
    exact ⟨crossing, inside, neighbour,
      (GridPlan.mem_neighbours inside).mpr ⟨neighbourInside, near⟩, same⟩

theorem grid_wellFormed (plan : GridPlan α) : (grid plan).WellFormed := by
  apply WellFormed.ofParts
  intro link member
  rcases mem_streets.mp member with ⟨crossing, neighbour, inside, neighbourInside, -, rfl⟩
  have known {end_ : Nat × Nat} (has : plan.HasCrossing end_) : plan.crossingId end_ ∈
      (plan.crossings.map fun crossing =>
        (⟨plan.crossingId crossing, plan.crossingPlace crossing⟩ : Node α)).map (·.id) := by
    rw [List.map_map]
    exact List.mem_map_of_mem (f := plan.crossingId) (GridPlan.mem_crossings.mpr has)
  exact ⟨known inside, known neighbourInside⟩

theorem getElem?_nodeIds_grid {position : Nat} {id : String} :
    (grid plan).nodeIds[position]? = some id ↔
      position < plan.rows * plan.columns ∧ toString position = id := by
  rw [nodeIds_grid, List.getElem?_map]
  by_cases inside : position < plan.rows * plan.columns <;> simp [inside]

end

end Network

/-! ## The graph -/

open Network (GridPlan)

/-- A graph has a node for every crossing of a grid city, with the number of the crossing for
an id, and links for the streets between crossings one block away from each other. -/
structure Graph.IsGrid {α : Type} (graph : Graph α) (plan : GridPlan α) : Prop where
  wellFormed : graph.WellFormed
  size_eq : graph.size = plan.rows * plan.columns
  nodeIndex?_eq : ∀ id node, graph.nodeIndex? id = some node ↔
    node < plan.rows * plan.columns ∧ toString node = id
  links : ∀ link ∈ graph.links, link.length = plan.spacing ∧ link.freeSpeed = plan.freeSpeed ∧
    ∃ crossing neighbour, plan.HasCrossing crossing ∧ plan.HasCrossing neighbour ∧
      GridPlan.blocks crossing neighbour = 1 ∧
      link.origin = plan.number crossing ∧ link.destination = plan.number neighbour
  streets : ∀ crossing neighbour, plan.HasCrossing crossing → plan.HasCrossing neighbour →
    GridPlan.blocks crossing neighbour = 1 → ∃ link ∈ graph.links,
      link.origin = plan.number crossing ∧ link.destination = plan.number neighbour

namespace Graph.IsGrid

section

variable {α : Type} [Scalar α] {plan : GridPlan α} {graph : Graph α}

theorem of_made {identity : Nat}
    (made : Graph.ofNetwork identity (Network.grid plan) = .ok graph) : graph.IsGrid plan := by
  have wellFormed := Network.grid_wellFormed plan
  have depicts := wellFormed.depicts made
  have ends {made : Graph.Link α} {link : Network.Link α}
      (stands : Graph.Link.Depicts (Network.grid plan) made link) {crossing neighbour : Nat × Nat}
      (street : plan.street crossing neighbour = link) :
      made.origin = plan.number crossing ∧ made.destination = plan.number neighbour := by
    subst street
    exact ⟨Nat.repr_injective (Network.getElem?_nodeIds_grid.mp stands.origin).2,
      Nat.repr_injective (Network.getElem?_nodeIds_grid.mp stands.destination).2⟩
  refine ⟨Graph.ofNetwork_wellFormed made, ?_, ?_, ?_, ?_⟩
  · have counted := congrArg List.length depicts.nodes_eq
    have listed := congrArg List.length (Network.nodeIds_grid plan)
    simp only [Network.nodeIds, List.length_map, List.length_zipIdx, List.length_range,
      Array.length_toList] at counted listed
    exact counted.trans listed
  · intro id node
    rw [depicts.nodeIndex?_eq, wellFormed.filed, Network.getElem?_nodeIds_grid]
  · intro link member
    have turned : List.Forall₂ (fun link made => Graph.Link.Depicts (Network.grid plan) made link)
        (Network.grid plan).links.toList graph.links.toList := depicts.links.flip
    rcases exists_of_forall₂ turned (Array.mem_toList_iff.mpr member) with
      ⟨original, originalMember, stands⟩
    rcases Network.mem_streets.mp (by simpa [Network.grid, Network.ofParts] using originalMember)
      with ⟨crossing, neighbour, inside, neighbourInside, near, street⟩
    refine ⟨?_, ?_, crossing, neighbour, inside, neighbourInside, near, ends stands street⟩
    · rw [stands.length_eq, ← street]
      rfl
    · rw [stands.freeSpeed_eq, ← street]
      rfl
  · intro crossing neighbour inside neighbourInside near
    have member : plan.street crossing neighbour ∈ (Network.grid plan).links.toList := by
      simpa [Network.grid, Network.ofParts] using
        Network.mem_streets.mpr ⟨crossing, neighbour, inside, neighbourInside, near, rfl⟩
    rcases exists_of_forall₂ depicts.links member with ⟨link, linkMember, stands⟩
    exact ⟨link, Array.mem_toList_iff.mp linkMember, ends stands rfl⟩

omit [Scalar α] in
theorem number_lt_size (isGrid : graph.IsGrid plan) {crossing : Nat × Nat}
    (inside : plan.HasCrossing crossing) : plan.number crossing < graph.size := by
  rw [isGrid.size_eq]
  exact GridPlan.number_lt inside

omit [Scalar α] in
/-- It takes as many links to get from one crossing to another as there are blocks between
them. -/
theorem isLevelling (isGrid : graph.IsGrid plan) {source : Nat × Nat}
    (sourceInside : plan.HasCrossing source) :
    graph.IsLevelling (plan.number source) fun node =>
      GridPlan.blocks source (plan.crossingAt node) where
  source_eq := by
    rw [GridPlan.crossingAt_number sourceInside]
    simp [GridPlan.blocks]
  onwards := by
    intro link member
    rcases isGrid.links link member with
      ⟨-, -, crossing, neighbour, inside, neighbourInside, near, origin, destination⟩
    rw [origin, destination, GridPlan.crossingAt_number inside,
      GridPlan.crossingAt_number neighbourInside]
    exact GridPlan.blocks_le_succ near
  backwards := by
    intro node nodeInside different
    rw [isGrid.size_eq] at nodeInside
    have inside := GridPlan.hasCrossing_crossingAt nodeInside
    have apart : plan.crossingAt node ≠ source := by
      rintro rfl
      exact different (GridPlan.number_crossingAt plan node).symm
    rcases GridPlan.exists_nearer sourceInside inside apart with
      ⟨nearer, nearerInside, near, fewer⟩
    rcases isGrid.streets nearer _ nearerInside inside near with
      ⟨link, member, origin, destination⟩
    refine ⟨link, member, destination.trans (GridPlan.number_crossingAt plan node), ?_⟩
    rw [origin, GridPlan.crossingAt_number nearerInside]
    exact fewer

end

/-- All streets take the same time at free speed. -/
theorem isUniform {K : Type} [Field K] [LinearOrder K] [FloorRing K] [Trigonometry K]
    [IsStrictOrderedRing K] {plan : GridPlan (Exact K)} {graph : Graph (Exact K)}
    (isGrid : graph.IsGrid plan) {spacing freeSpeed : K} (spaced : plan.spacing = spacing)
    (fast : plan.freeSpeed = freeSpeed) (spacing_pos : 0 < spacing)
    (freeSpeed_pos : 0 < freeSpeed) :
    CostModel.freeSpeed.IsUniform graph spacing (spacing / freeSpeed) := by
  have length (link : Graph.Link (Exact K)) (member : link ∈ graph.links) :
      link.length = spacing := (isGrid.links link member).1.trans spaced
  have duration (link : Graph.Link (Exact K)) (member : link ∈ graph.links) :
      link.length / link.freeSpeed = (spacing / freeSpeed : K) := by
    rw [length link member, (isGrid.links link member).2.1, fast,
      Exact.finite_div_finite _ freeSpeed_pos.ne']
  exact
    { length_pos := spacing_pos
      duration_pos := div_pos spacing_pos freeSpeed_pos
      length_eq := length
      travelTime_eq := fun link member _ => duration link member
      disutility_eq := fun link member _ => duration link member
      priced := fun _ _ => rfl }

end Graph.IsGrid

end JourneyTimes
