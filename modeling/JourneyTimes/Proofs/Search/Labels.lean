import JourneyTimes.Proofs.Search.Stamped
import JourneyTimes.Search.Labels
import Mathlib.Tactic.SplitIfs

/-!
# Labels are written part by part

The parts of a label are in vectors of their own, and every change to the labels writes
some of them.  What is then known about the nodes is that the label of one node has changed
in these parts.  A reset leaves nothing in any part, whatever was written before.
-/

namespace JourneyTimes.Labels

variable {α : Type} [Scalar α] {labels left right : Labels α} {size node : Nat}

/-- The label that a reset gives to every node. -/
def default (labels : Labels α) : Label α :=
  { cost := labels.costs.default
    time := labels.times.default
    distance := labels.distances.default
    via := labels.vias.default
    settled := labels.settled.default
    pruned := labels.pruned.default }

/-- Labels of `size` nodes, which a reset takes back to knowing nothing. -/
structure Valid (labels : Labels α) (size : Nat) : Prop where
  costs : labels.costs.Valid size
  times : labels.times.Valid size
  distances : labels.distances.Valid size
  vias : labels.vias.Valid size
  settled : labels.settled.Valid size
  pruned : labels.pruned.Valid size
  default_eq : labels.default = Label.unknown

namespace Valid

theorem make (size : Nat) : (make size : Labels α).Valid size :=
  { costs := Stamped.valid_make size _
    times := Stamped.valid_make size _
    distances := Stamped.valid_make size _
    vias := Stamped.valid_make size _
    settled := Stamped.valid_make size _
    pruned := Stamped.valid_make size _
    default_eq := rfl }

theorem reset (valid : labels.Valid size) : labels.reset.Valid size where
  costs := valid.costs.reset
  times := valid.times.reset
  distances := valid.distances.reset
  vias := valid.vias.reset
  settled := valid.settled.reset
  pruned := valid.pruned.reset
  default_eq := by
    rw [← valid.default_eq]
    simp [default, Labels.reset]

theorem depart (valid : labels.Valid size) (source : Nat) (start : α) :
    (labels.depart source start).Valid size :=
  { valid with
    costs := valid.costs.set _ _
    times := valid.times.set _ _
    distances := valid.distances.set _ _
    default_eq := valid.default_eq }

theorem improve (valid : labels.Valid size) (node : Nat) (found : Label α) :
    (labels.improve node found).Valid size :=
  { valid with
    costs := valid.costs.set _ _
    times := valid.times.set _ _
    distances := valid.distances.set _ _
    vias := valid.vias.set _ _
    settled := valid.settled.set _ _
    default_eq := valid.default_eq }

theorem settle (valid : labels.Valid size) (node : Nat) : (labels.settle node).Valid size :=
  { valid with
    settled := valid.settled.set _ _
    default_eq := valid.default_eq }

theorem prune (valid : labels.Valid size) (node : Nat) : (labels.prune node).Valid size :=
  { valid with
    pruned := valid.pruned.set _ _
    default_eq := valid.default_eq }

/-- After a reset nothing is known about any node. -/
theorem get_reset (valid : labels.Valid size) (node : Nat) :
    labels.reset.get node = Label.unknown := by
  rw [← valid.default_eq]
  simp only [get, Labels.reset, default, valid.costs.get_reset, valid.times.get_reset,
    valid.distances.get_reset, valid.vias.get_reset, valid.settled.get_reset,
    valid.pruned.get_reset]

variable (valid : labels.Valid size) (inside : node < size)

include valid inside

theorem get_depart (start : α) (other : Nat) :
    (labels.depart node start).get other =
      if other = node then { labels.get node with cost := 0, time := start, distance := 0 }
      else labels.get other := by
  simp only [get, Labels.depart, valid.costs.get_set inside, valid.times.get_set inside,
    valid.distances.get_set inside]
  split_ifs with same
  · rw [same]
  · rfl

/-- A better way takes the place of the known one, but whether the node was pruned is not
written. -/
theorem get_improve (found : Label α) (other : Nat) :
    (labels.improve node found).get other =
      if other = node then
        { found with settled := false, pruned := (labels.get node).pruned }
      else labels.get other := by
  simp only [get, Labels.improve, valid.costs.get_set inside, valid.times.get_set inside,
    valid.distances.get_set inside, valid.vias.get_set inside, valid.settled.get_set inside]
  split_ifs with same
  · rw [same]
  · rfl

theorem get_settle (other : Nat) :
    (labels.settle node).get other =
      if other = node then { labels.get node with settled := true } else labels.get other := by
  simp only [get, Labels.settle, valid.settled.get_set inside]
  split_ifs with same
  · rw [same]
  · rfl

theorem get_prune (other : Nat) :
    (labels.prune node).get other =
      if other = node then { labels.get node with pruned := true } else labels.get other := by
  simp only [get, Labels.prune, valid.pruned.get_set inside]
  split_ifs with same
  · rw [same]
  · rfl

end Valid

/-! ## Labels that say the same -/

/-- Labels of the same nodes that nothing but their stamps tells apart. -/
structure Alike (size : Nat) (left right : Labels α) : Prop where
  costs : left.costs.Alike size right.costs
  times : left.times.Alike size right.times
  distances : left.distances.Alike size right.distances
  vias : left.vias.Alike size right.vias
  settled : left.settled.Alike size right.settled
  pruned : left.pruned.Alike size right.pruned

theorem Valid.alike (leftValid : left.Valid size) (rightValid : right.Valid size)
    (same : ∀ node, left.get node = right.get node) : Alike size left right where
  costs := ⟨leftValid.costs, rightValid.costs, fun node => congrArg Label.cost (same node)⟩
  times := ⟨leftValid.times, rightValid.times, fun node => congrArg Label.time (same node)⟩
  distances :=
    ⟨leftValid.distances, rightValid.distances, fun node => congrArg Label.distance (same node)⟩
  vias := ⟨leftValid.vias, rightValid.vias, fun node => congrArg Label.via (same node)⟩
  settled :=
    ⟨leftValid.settled, rightValid.settled, fun node => congrArg Label.settled (same node)⟩
  pruned := ⟨leftValid.pruned, rightValid.pruned, fun node => congrArg Label.pruned (same node)⟩

namespace Alike

variable (alike : Alike size left right)

include alike
omit [Scalar α]

theorem get_eq (node : Nat) : left.get node = right.get node := by
  simp only [get, alike.costs.get_eq, alike.times.get_eq, alike.distances.get_eq,
    alike.vias.get_eq, alike.settled.get_eq, alike.pruned.get_eq]

theorem depart [Scalar α] (source : Nat) (start : α) :
    Alike size (left.depart source start) (right.depart source start) :=
  { alike with
    costs := alike.costs.set _ _
    times := alike.times.set _ _
    distances := alike.distances.set _ _ }

theorem improve (node : Nat) (found : Label α) :
    Alike size (left.improve node found) (right.improve node found) :=
  { alike with
    costs := alike.costs.set _ _
    times := alike.times.set _ _
    distances := alike.distances.set _ _
    vias := alike.vias.set _ _
    settled := alike.settled.set _ _ }

theorem settle (node : Nat) : Alike size (left.settle node) (right.settle node) :=
  { alike with settled := alike.settled.set _ _ }

theorem prune (node : Nat) : Alike size (left.prune node) (right.prune node) :=
  { alike with pruned := alike.pruned.set _ _ }

end Alike

end JourneyTimes.Labels
