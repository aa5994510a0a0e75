import JourneyTimes.Graph.Components
import Mathlib.Algebra.BigOperators.Group.Finset.Piecewise
import Mathlib.Algebra.BigOperators.Intervals
import Mathlib.Algebra.Order.BigOperators.Group.Finset
import Mathlib.Logic.Relation

/-!
# Relations and what they reach

A relation knows every edge at both of its ends.  Two nodes are together if each of them
reaches the other; a strongly connected component is a class of nodes that are together.

A pass over a relation enters every node once and looks at the edges of a node when it
enters it.  What is left of nodes and edges is its load.  The load falls with every node
that is entered, and it bounds the number of steps.
-/

namespace JourneyTimes.Components

/-! ## Edges -/

theorem mem_addOnce {item other : Nat} {items : List Nat} :
    other ∈ addOnce item items ↔ other ∈ items ∨ other = item := by
  unfold addOnce
  split_ifs with known
  · rw [List.contains_iff_mem] at known
    rw [iff_self_or]
    rintro rfl
    exact known
  · rw [List.mem_append, List.mem_singleton]

theorem length_addOnce (item : Nat) (items : List Nat) :
    (addOnce item items).length = items.length + if item ∈ items then 0 else 1 := by
  unfold addOnce
  simp only [List.contains_iff_mem]
  split_ifs <;> simp

/-- What lists have at a place after one of them has been changed. -/
theorem getD_modify (lists : Array (List Nat)) (change : List Nat → List Nat) {place : Nat}
    (inside : place < lists.size) (other : Nat) :
    (lists.modify place change).getD other [] =
      if other = place then change (lists.getD place []) else lists.getD other [] := by
  simp only [Array.getD_eq_getD_getElem?, Array.getElem?_modify, eq_comm (a := place)]
  split_ifs with same
  · subst same
    simp [inside]
  · rfl

/-- The number of items in some lists. -/
def itemCount (lists : Array (List Nat)) : Nat :=
  ∑ place ∈ Finset.range lists.size, (lists.getD place []).length

theorem itemCount_modify (lists : Array (List Nat)) (item : Nat) {place : Nat}
    (inside : place < lists.size) : itemCount (lists.modify place (addOnce item)) =
      itemCount lists + if item ∈ lists.getD place [] then 0 else 1 := by
  have each (other : Nat) : ((lists.modify place (addOnce item)).getD other []).length =
      (lists.getD other []).length +
        if other = place then (if item ∈ lists.getD place [] then 0 else 1) else 0 := by
    rw [getD_modify lists _ inside]
    by_cases same : other = place
    · rw [if_pos same, if_pos same, length_addOnce, same]
    · rw [if_neg same, if_neg same, Nat.add_zero]
  simp only [itemCount, Array.size_modify, each, Finset.sum_add_distrib, Finset.sum_ite_eq',
    Finset.mem_range, if_pos inside]

/-- Counting through the lists one after another counts every item. -/
theorem foldl_length (lists : Array (List Nat)) :
    lists.foldl (fun total next => total + next.length) 0 = itemCount lists := by
  have sum (items : List (List Nat)) (start : Nat) :
      items.foldl (fun total next => total + next.length) start =
        start + ∑ place ∈ Finset.range items.length, (items.getD place []).length := by
    induction items generalizing start with
    | nil => rfl
    | cons first items ih =>
        rw [List.foldl_cons, ih, List.length_cons, Finset.sum_range_succ', List.getD_cons_zero]
        simp only [List.getD_cons_succ]
        omega
  rw [← Array.foldl_toList, sum, Nat.zero_add, itemCount, Array.length_toList]
  refine Finset.sum_congr rfl fun place _ => ?_
  rw [List.getD_eq_getElem?_getD, Array.getElem?_toList, Array.getD_eq_getD_getElem?]

namespace Relation

/-- An edge leads from one node to another. -/
def Leads (relation : Relation) (origin destination : Nat) : Prop :=
  destination ∈ relation.successors.getD origin []

/-- Edges lead from one node to another, one after the other. -/
def Reaches (relation : Relation) : Nat → Nat → Prop := Relation.ReflTransGen relation.Leads

/-- Each of two nodes reaches the other. -/
def Together (relation : Relation) (first second : Nat) : Prop :=
  relation.Reaches first second ∧ relation.Reaches second first

variable {relation : Relation}

theorem Together.refl (relation : Relation) (node : Nat) : relation.Together node node :=
  ⟨.refl, .refl⟩

theorem Together.symm {first second : Nat} (together : relation.Together first second) :
    relation.Together second first :=
  ⟨together.2, together.1⟩

theorem Together.trans {first second third : Nat} (before : relation.Together first second)
    (after : relation.Together second third) : relation.Together first third :=
  ⟨before.1.trans after.1, after.2.trans before.2⟩

/-- Every edge is known at both its ends, which are nodes. -/
structure Consistent (relation : Relation) : Prop where
  successors_size : relation.successors.size = relation.size
  predecessors_size : relation.predecessors.size = relation.size
  mem_predecessors : ∀ origin destination,
    origin ∈ relation.predecessors.getD destination [] ↔ relation.Leads origin destination
  balanced : itemCount relation.predecessors = itemCount relation.successors

namespace Consistent

variable (consistent : relation.Consistent)

include consistent

theorem origin_lt {origin destination : Nat} (leads : relation.Leads origin destination) :
    origin < relation.size := by
  by_contra outside
  rw [← consistent.successors_size] at outside
  simp [Leads, Array.getD_eq_getD_getElem?, outside] at leads

theorem destination_lt {origin destination : Nat} (leads : relation.Leads origin destination) :
    destination < relation.size := by
  by_contra outside
  rw [← consistent.predecessors_size] at outside
  have known := (consistent.mem_predecessors origin destination).mpr leads
  simp [Array.getD_eq_getD_getElem?, outside] at known

/-- What a node reaches is a node, and so is what reaches one. -/
theorem lt_iff {first second : Nat} (reaches : relation.Reaches first second) :
    first < relation.size ↔ second < relation.size := by
  induction reaches with
  | refl => rfl
  | tail _ leads ih =>
      rw [ih]
      exact iff_of_true (consistent.origin_lt leads) (consistent.destination_lt leads)

end Consistent

/-! ## Relations of lists of edges -/

/-- A relation with one more edge. -/
def add (relation : Relation) (edge : Nat × Nat) : Relation :=
  { relation with
    successors := relation.successors.modify edge.1 (addOnce edge.2)
    predecessors := relation.predecessors.modify edge.2 (addOnce edge.1) }

theorem leads_add {edge : Nat × Nat} (inside : edge.1 < relation.successors.size)
    (origin destination : Nat) : (relation.add edge).Leads origin destination ↔
      relation.Leads origin destination ∨ (origin, destination) = edge := by
  rw [Leads, add, getD_modify _ _ inside, Leads, Prod.ext_iff]
  by_cases same : origin = edge.1
  · rw [if_pos same, mem_addOnce, same]
    simp
  · rw [if_neg same]
    simp [same]

theorem Consistent.add (consistent : relation.Consistent) {edge : Nat × Nat}
    (originInside : edge.1 < relation.size) (destinationInside : edge.2 < relation.size) :
    (relation.add edge).Consistent := by
  have originInside : edge.1 < relation.successors.size := by
    rwa [consistent.successors_size]
  have destinationInside : edge.2 < relation.predecessors.size := by
    rwa [consistent.predecessors_size]
  refine ⟨?_, ?_, ?_, ?_⟩
  · rw [Relation.add, Array.size_modify]
    exact consistent.successors_size
  · rw [Relation.add, Array.size_modify]
    exact consistent.predecessors_size
  · intro origin destination
    rw [leads_add originInside, ← consistent.mem_predecessors, Relation.add,
      getD_modify _ _ destinationInside, Prod.ext_iff]
    by_cases same : destination = edge.2
    · rw [if_pos same, mem_addOnce, same]
      simp
    · rw [if_neg same]
      simp [same]
  · rw [Relation.add, itemCount_modify _ _ originInside, itemCount_modify _ _ destinationInside,
      consistent.balanced]
    congr 1
    exact if_congr (consistent.mem_predecessors edge.1 edge.2) rfl rfl

/-- Nodes without edges. -/
def bare (size : Nat) : Relation :=
  ⟨size, Array.replicate size [], Array.replicate size []⟩

theorem not_mem_getD_replicate (size place item : Nat) :
    item ∉ (Array.replicate size ([] : List Nat)).getD place [] := by
  rw [Array.getD_eq_getD_getElem?, Array.getElem?_replicate]
  split_ifs <;> exact List.not_mem_nil

theorem not_leads_bare (size origin destination : Nat) :
    ¬ (bare size).Leads origin destination :=
  not_mem_getD_replicate size origin destination

theorem bare_consistent (size : Nat) : (bare size).Consistent where
  successors_size := Array.size_replicate
  predecessors_size := Array.size_replicate
  mem_predecessors origin destination :=
    iff_of_false (not_mem_getD_replicate size destination origin)
      (not_leads_bare size origin destination)
  balanced := rfl

/-- Edges are added one after another. -/
theorem Consistent.foldl_add (consistent : relation.Consistent) {edges : List (Nat × Nat)}
    (inside : ∀ edge ∈ edges, edge.1 < relation.size ∧ edge.2 < relation.size) :
    (edges.foldl Relation.add relation).Consistent ∧
      (edges.foldl Relation.add relation).size = relation.size ∧
      ∀ origin destination, (edges.foldl Relation.add relation).Leads origin destination ↔
        relation.Leads origin destination ∨ (origin, destination) ∈ edges := by
  induction edges generalizing relation with
  | nil => exact ⟨consistent, rfl, by simp⟩
  | cons edge edges ih =>
      rcases List.forall_mem_cons.mp inside with ⟨first, rest⟩
      rcases ih (consistent.add first.1 first.2) rest with ⟨allConsistent, allSized, leads⟩
      refine ⟨allConsistent, allSized, fun origin destination => ?_⟩
      rw [List.foldl_cons, leads, leads_add (by rw [consistent.successors_size]; exact first.1),
        List.mem_cons, or_assoc]

/-- The relation of some edges between nodes has these edges. -/
theorem ofEdges_consistent {size : Nat} {edges : List (Nat × Nat)}
    (inside : ∀ edge ∈ edges, edge.1 < size ∧ edge.2 < size) :
    (ofEdges size edges).Consistent ∧ (ofEdges size edges).size = size ∧
      ∀ origin destination, (ofEdges size edges).Leads origin destination ↔
        (origin, destination) ∈ edges := by
  rcases (bare_consistent size).foldl_add inside with ⟨consistent, sized, leads⟩
  refine ⟨consistent, sized, fun origin destination => ?_⟩
  exact (leads origin destination).trans
    (or_iff_right (not_leads_bare size origin destination))

end Relation

/-! ## Loads -/

/-- Whether a pass has entered a node. -/
def IsEntered (discovered : Array Bool) (node : Nat) : Prop := discovered.getD node true = true

instance (discovered : Array Bool) (node : Nat) : Decidable (IsEntered discovered node) :=
  inferInstanceAs (Decidable (_ = _))

theorem isEntered_set (discovered : Array Bool) (node other : Nat) :
    IsEntered (discovered.setIfInBounds node true) other ↔
      other = node ∨ IsEntered discovered other := by
  simp only [IsEntered, Array.getD_eq_getD_getElem?, Array.getElem?_setIfInBounds]
  by_cases same : other = node
  · subst same
    rw [if_pos rfl]
    split_ifs <;> simp
  · simp [same, Ne.symm same]

theorem isEntered_replicate {size node : Nat} (inside : node < size) :
    ¬ IsEntered (Array.replicate size false) node := by
  simp [IsEntered, inside]

theorem lt_of_not_isEntered {discovered : Array Bool} {node : Nat}
    (fresh : ¬ IsEntered discovered node) : node < discovered.size := by
  by_contra outside
  simp [IsEntered, outside] at fresh

/-- What is left for a pass: the nodes that it has not entered, and their edges. -/
def load (lists : Array (List Nat)) (discovered : Array Bool) : Nat :=
  ∑ node ∈ Finset.range discovered.size with ¬ IsEntered discovered node,
    (1 + (lists.getD node []).length)

/-- A node that is entered is taken off the load, with its edges. -/
theorem load_set (lists : Array (List Nat)) {discovered : Array Bool} {node : Nat}
    (fresh : ¬ IsEntered discovered node) :
    load lists (discovered.setIfInBounds node true) + (1 + (lists.getD node []).length) =
      load lists discovered := by
  have rest : {other ∈ Finset.range (discovered.setIfInBounds node true).size |
      ¬ IsEntered (discovered.setIfInBounds node true) other} =
        {other ∈ Finset.range discovered.size | ¬ IsEntered discovered other}.erase node := by
    ext other
    simp only [Finset.mem_filter, Finset.mem_erase, isEntered_set, Array.size_setIfInBounds]
    tauto
  rw [load, rest, load, Finset.sum_erase_add]
  exact Finset.mem_filter.mpr ⟨Finset.mem_range.mpr (lt_of_not_isEntered fresh), fresh⟩

theorem load_le (lists : Array (List Nat)) {discovered : Array Bool}
    (sized : lists.size = discovered.size) :
    load lists discovered ≤ discovered.size + itemCount lists := by
  calc load lists discovered
      ≤ ∑ node ∈ Finset.range discovered.size, (1 + (lists.getD node []).length) :=
        Finset.sum_le_sum_of_subset (Finset.filter_subset ..)
    _ = discovered.size + itemCount lists := by
        rw [Finset.sum_add_distrib, Finset.sum_const_nat (fun _ _ => rfl), Finset.card_range,
          Nat.mul_one, itemCount, sized]

/-- Both passes have steps enough to work off a single node. -/
theorem Relation.Consistent.load_le_steps {relation : Relation} (consistent : relation.Consistent)
    {lists : Array (List Nat)}
    (either : lists = relation.predecessors ∨ lists = relation.successors)
    {discovered : Array Bool} (sized : discovered.size = relation.size) :
    1 + load lists discovered ≤ relation.steps := by
  have total : lists.size = discovered.size ∧ itemCount lists = itemCount relation.successors := by
    rcases either with rfl | rfl
    · exact ⟨by rw [consistent.predecessors_size, sized], consistent.balanced⟩
    · exact ⟨by rw [consistent.successors_size, sized], rfl⟩
  have bound := load_le lists total.1
  rw [total.2, sized] at bound
  have steps : relation.steps = 2 * (relation.size + itemCount relation.successors) + 2 := by
    rw [Relation.steps, foldl_length]
  omega

end JourneyTimes.Components
