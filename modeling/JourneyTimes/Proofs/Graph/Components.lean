import JourneyTimes.Proofs.Graph.Finishing

/-!
# Components are found

The forward pass begins at the node that the backward pass was done with last, and collects
what the node still reaches.  What it collects lies in one component, because of what the
backward pass was done with before: a component that reaches the node and has no node at or
before it in the order would lie behind it as a whole, and so would the node.

It does not matter to others how components are found, nor in which order.
-/

namespace JourneyTimes.Components

variable {relation : Relation}

/-- The strongly connected components: every node is in one of them, once, and the nodes of
each are those that are together with any of them. -/
structure Relation.AreComponents (relation : Relation) (components : List (List Nat)) : Prop where
  once : components.flatten.Nodup
  covers : ∀ node, node ∈ components.flatten ↔ node < relation.size
  inhabited : ∀ members ∈ components, members ≠ []
  mem_iff : ∀ members ∈ components, ∀ node ∈ members, ∀ other,
    other ∈ members ↔ relation.Together node other

/-- A function that finds the components of every relation. -/
def FindsComponents (find : Relation → List (List Nat)) : Prop :=
  ∀ relation : Relation, relation.Consistent → relation.AreComponents (find relation)

/-! ## The forward pass -/

/-- What holds at every step of the forward pass from a root, which begins when some nodes
are known: it has collected nodes that the root reaches, and what edges lead to from these
has been entered or waits on the stack. -/
structure Collects (relation : Relation) (known : Array Bool) (root : Nat) (stack : List Nat)
    (discovered : Array Bool) (members : List Nat) : Prop where
  sized : discovered.size = relation.size
  entered_iff : ∀ node, IsEntered discovered node ↔ IsEntered known node ∨ node ∈ members
  fresh : ∀ node ∈ members, ¬ IsEntered known node
  nodup : members.Nodup
  reached : ∀ node, node ∈ members ∨ node ∈ stack → relation.Reaches root node
  followed : ∀ node ∈ members, ∀ next, relation.Leads node next →
    IsEntered discovered next ∨ next ∈ stack
  begun : IsEntered discovered root ∨ root ∈ stack

namespace Collects

variable {known discovered : Array Bool} {root node : Nat} {stack rest members : List Nat}

protected theorem start (sized : known.size = relation.size) (root : Nat) :
    Collects relation known root [root] known [] where
  sized := sized
  entered_iff := by simp
  fresh := by simp
  nodup := .nil
  reached := by
    intro node member
    obtain rfl : node = root := by simpa using member
    exact .refl
  followed := by simp
  begun := .inr (List.mem_singleton_self root)

/-- A node that is entered already is taken off the stack. -/
theorem skip (collects : Collects relation known root (node :: rest) discovered members)
    (entered : IsEntered discovered node) :
    Collects relation known root rest discovered members := by
  have still {other : Nat} (before : IsEntered discovered other ∨ other ∈ node :: rest) :
      IsEntered discovered other ∨ other ∈ rest := by
    rcases before with old | member
    · exact .inl old
    · rcases List.mem_cons.mp member with rfl | later
      · exact .inl entered
      · exact .inr later
  exact { collects with
    reached := fun other member =>
      collects.reached other (member.imp_right (List.mem_cons_of_mem _))
    followed := fun other member next leads => still (collects.followed other member next leads)
    begun := still collects.begun }

/-- A new node is collected, and what it leads to and is new is put on the stack. -/
theorem enter (collects : Collects relation known root (node :: rest) discovered members)
    (new : ¬ IsEntered discovered node) {next : List Nat}
    (mem_next : ∀ other, other ∈ next ↔ relation.Leads node other ∧
      ¬ IsEntered (discovered.setIfInBounds node true) other) :
    Collects relation known root (next ++ rest) (discovered.setIfInBounds node true)
      (node :: members) := by
  have enteredIff (other : Nat) : IsEntered (discovered.setIfInBounds node true) other ↔
      other = node ∨ IsEntered discovered other := isEntered_set ..
  rcases not_or.mp ((collects.entered_iff node).not.mp new) with ⟨unknown, notMember⟩
  have top := collects.reached node (.inr (List.mem_cons_self ..))
  have still {other : Nat} (before : IsEntered discovered other ∨ other ∈ node :: rest) :
      IsEntered (discovered.setIfInBounds node true) other ∨ other ∈ next ++ rest := by
    rw [enteredIff, List.mem_append]
    rcases before with old | member
    · exact .inl (.inr old)
    · exact (List.mem_cons.mp member).imp .inl .inr
  constructor
  case sized => simpa using collects.sized
  case entered_iff =>
    intro other
    rw [enteredIff, collects.entered_iff, List.mem_cons, or_left_comm]
  case fresh => exact List.forall_mem_cons.mpr ⟨unknown, collects.fresh⟩
  case nodup => exact List.nodup_cons.mpr ⟨notMember, collects.nodup⟩
  case reached =>
    rintro other (member | member)
    · rcases List.mem_cons.mp member with rfl | old
      · exact top
      · exact collects.reached other (.inl old)
    · rcases List.mem_append.mp member with found | old
      · exact top.tail ((mem_next other).mp found).1
      · exact collects.reached other (.inr (List.mem_cons_of_mem _ old))
  case followed =>
    refine List.forall_mem_cons.mpr ⟨fun other leads => ?_, fun origin member other leads =>
      still (collects.followed origin member other leads)⟩
    rw [List.mem_append]
    exact or_iff_not_imp_left.mpr fun fresh => .inl ((mem_next other).mpr ⟨leads, fresh⟩)
  case begun => exact still collects.begun

/-- The pass works off its stack. -/
theorem collect {fuel : Nat} (collects : Collects relation known root stack discovered members)
    (enough : stack.length + load relation.successors discovered ≤ fuel) :
    Collects relation known root []
      (Components.collect relation fuel stack (discovered, members)).1
      (Components.collect relation fuel stack (discovered, members)).2 := by
  induction fuel generalizing stack discovered members with
  | zero =>
      obtain rfl : stack = [] := List.eq_nil_of_length_eq_zero (by omega)
      exact collects
  | succ fuel ih =>
      cases stack with
      | nil => exact collects
      | cons node rest =>
          rw [List.length_cons] at enough
          rw [Components.collect]
          split_ifs with entered
          · exact ih (collects.skip entered) (by omega)
          · have fewer := load_set relation.successors entered
            have few := List.length_filter_le
              (fun next => !(discovered.setIfInBounds node true).getD next true)
              (relation.successors.getD node [])
            refine ih (collects.enter entered fun other => ?_) ?_
            · rw [List.mem_reverse, List.mem_filter, IsEntered, Bool.not_eq_true', Bool.not_eq_true]
              rfl
            · rw [List.length_append, List.length_reverse]
              omega

/-- In the end a root that was not known reaches the members through nodes that were not
known either, and nothing else. -/
theorem mem_of_reaches (collects : Collects relation known root [] discovered members)
    (unknown : ∀ node, relation.Together root node → ¬ IsEntered known node)
    {node : Nat} (together : relation.Together root node) : node ∈ members := by
  have fresh : root ∈ members :=
    ((collects.entered_iff root).mp (collects.begun.resolve_right List.not_mem_nil)).resolve_left
      (unknown root (.refl relation root))
  rcases together with ⟨reaches, back⟩
  induction reaches with
  | refl => exact fresh
  | @tail before node onwards leads ih =>
      have member := ih (back.head leads)
      have entered := (collects.followed before member node leads).resolve_right List.not_mem_nil
      exact ((collects.entered_iff node).mp entered).resolve_left
        (unknown node ⟨onwards.tail leads, back⟩)

end Collects

/-! ## All components -/

/-- Collect what is new from a node on, unless the node has been entered. -/
def Relation.visit (relation : Relation) (state : Array Bool × List (List Nat)) (node : Nat) :
    Array Bool × List (List Nat) :=
  if state.1.getD node true then state
  else
    ((collect relation relation.steps [node] (state.1, [])).1,
      (collect relation relation.steps [node] (state.1, [])).2.reverse :: state.2)

/-- What holds when the forward pass has begun at every node of some first part of the
finishing order that was new by then: the components of these nodes have been found. -/
structure Covers (relation : Relation) (done : List Nat) (discovered : Array Bool)
    (found : List (List Nat)) : Prop where
  sized : discovered.size = relation.size
  entered_iff : ∀ node < relation.size,
    IsEntered discovered node ↔ ∃ other ∈ done, relation.Together node other
  mem_flatten : ∀ node, node ∈ found.flatten ↔ node < relation.size ∧ IsEntered discovered node
  once : found.flatten.Nodup
  inhabited : ∀ members ∈ found, members ≠ []
  mem_iff : ∀ members ∈ found, ∀ node ∈ members, ∀ other,
    other ∈ members ↔ relation.Together node other

namespace Covers

variable {done rest members : List Nat} {node : Nat} {discovered next : Array Bool}
  {found : List (List Nat)}

protected theorem start (relation : Relation) :
    Covers relation [] (Array.replicate relation.size false) [] where
  sized := Array.size_replicate
  entered_iff node inside := iff_of_false (isEntered_replicate inside) (by simp)
  mem_flatten node := by
    refine iff_of_false (by simp) ?_
    rintro ⟨inside, entered⟩
    exact isEntered_replicate inside entered
  once := .nil
  inhabited := by simp
  mem_iff := by simp

/-- The component of a node that has been entered is there already. -/
theorem skip (covers : Covers relation done discovered found) (inside : node < relation.size)
    (entered : IsEntered discovered node) :
    Covers relation (done ++ [node]) discovered found := by
  refine { covers with entered_iff := fun other otherInside => ?_ }
  rw [covers.entered_iff other otherInside]
  constructor
  · rintro ⟨first, member, together⟩
    exact ⟨first, List.mem_append_left _ member, together⟩
  · rintro ⟨first, member, together⟩
    rcases List.mem_append.mp member with old | new
    · exact ⟨first, old, together⟩
    · obtain rfl := List.mem_singleton.mp new
      rcases (covers.entered_iff first inside).mp entered with ⟨earlier, old, joined⟩
      exact ⟨earlier, old, together.trans joined⟩

/-- What a new node still reaches is its component. -/
theorem mem_iff_of_collects (consistent : relation.Consistent)
    (isOrder : relation.IsFinishOrder (done ++ node :: rest))
    (covers : Covers relation done discovered found) (new : ¬ IsEntered discovered node)
    (collects : Collects relation discovered node [] next members) (other : Nat) :
    other ∈ members ↔ relation.Together node other := by
  have inside : node < relation.size := (isOrder.mem_iff node).mp (by simp)
  have unknown (last : Nat) (together : relation.Together node last) :
      ¬ IsEntered discovered last := by
    rw [covers.entered_iff last ((consistent.lt_iff together.1).mp inside)]
    rintro ⟨first, member, joined⟩
    exact new ((covers.entered_iff node inside).mpr ⟨first, member, together.trans joined⟩)
  refine ⟨fun member => ?_, collects.mem_of_reaches unknown⟩
  have reaches := collects.reached other (.inl member)
  have otherInside := (consistent.lt_iff reaches).mp inside
  by_contra apart
  -- No node of the other component comes at or before the root, so all of them come behind.
  have behind (last : Nat) (joined : relation.Together other last) : last ∈ rest := by
    have known := (isOrder.mem_iff last).mpr ((consistent.lt_iff joined.1).mp otherInside)
    rcases List.mem_append.mp known with before | later
    · exact absurd ((covers.entered_iff other otherInside).mpr ⟨last, before, joined⟩)
        (collects.fresh other member)
    · rcases List.mem_cons.mp later with rfl | behind
      · exact absurd joined.symm apart
      · exact behind
  have again := isOrder.nested (done ++ [node]) rest (by simp) other
    (behind other (.refl relation other)) behind node reaches
  have once : (node :: rest).Nodup := isOrder.nodup.of_append_right
  exact (List.nodup_cons.mp once).1 again

theorem collect (consistent : relation.Consistent)
    (isOrder : relation.IsFinishOrder (done ++ node :: rest))
    (covers : Covers relation done discovered found) (new : ¬ IsEntered discovered node)
    (collects : Collects relation discovered node [] next members) :
    Covers relation (done ++ [node]) next (members.reverse :: found) := by
  have memIff := covers.mem_iff_of_collects consistent isOrder new collects
  have inside : node < relation.size := (isOrder.mem_iff node).mp (by simp)
  constructor
  case sized => exact collects.sized
  case entered_iff =>
    intro other otherInside
    rw [collects.entered_iff, covers.entered_iff other otherInside, memIff]
    constructor
    · rintro (⟨first, member, together⟩ | together)
      · exact ⟨first, List.mem_append_left _ member, together⟩
      · exact ⟨node, by simp, together.symm⟩
    · rintro ⟨first, member, together⟩
      rcases List.mem_append.mp member with old | last
      · exact .inl ⟨first, old, together⟩
      · obtain rfl := List.mem_singleton.mp last
        exact .inr together.symm
  case mem_flatten =>
    intro other
    rw [List.flatten_cons, List.mem_append, List.mem_reverse, covers.mem_flatten,
      collects.entered_iff, memIff]
    constructor
    · rintro (together | ⟨otherInside, entered⟩)
      · exact ⟨(consistent.lt_iff together.1).mp inside, .inr together⟩
      · exact ⟨otherInside, .inl entered⟩
    · rintro ⟨otherInside, entered | together⟩
      · exact .inr ⟨otherInside, entered⟩
      · exact .inl together
  case once =>
    rw [List.flatten_cons]
    refine List.nodup_append.mpr ⟨List.nodup_reverse.mpr collects.nodup, covers.once, ?_⟩
    rintro first isMember second isOld rfl
    exact collects.fresh first (List.mem_reverse.mp isMember)
      ((covers.mem_flatten first).mp isOld).2
  case inhabited =>
    refine List.forall_mem_cons.mpr ⟨?_, covers.inhabited⟩
    rw [ne_eq, List.reverse_eq_nil_iff]
    exact List.ne_nil_of_mem ((memIff node).mpr (.refl relation node))
  case mem_iff =>
    refine List.forall_mem_cons.mpr ⟨fun first isMember other => ?_, covers.mem_iff⟩
    have joined := (memIff first).mp (List.mem_reverse.mp isMember)
    rw [List.mem_reverse, memIff]
    exact ⟨joined.symm.trans, joined.trans⟩

/-- The forward pass begins at the next node of the order, if that is new. -/
theorem visit (consistent : relation.Consistent)
    (isOrder : relation.IsFinishOrder (done ++ node :: rest))
    {state : Array Bool × List (List Nat)} (covers : Covers relation done state.1 state.2) :
    Covers relation (done ++ [node]) (relation.visit state node).1
      (relation.visit state node).2 := by
  unfold Relation.visit
  split_ifs with entered
  · exact covers.skip ((isOrder.mem_iff node).mp (by simp)) entered
  · refine covers.collect consistent isOrder entered
      ((Collects.start covers.sized node).collect ?_)
    exact consistent.load_le_steps (.inr rfl) covers.sized

theorem upto (consistent : relation.Consistent) {order : List Nat}
    (isOrder : relation.IsFinishOrder order) (split : order = done ++ rest)
    (state : Array Bool × List (List Nat)) (covers : Covers relation done state.1 state.2) :
    Covers relation order (rest.foldl relation.visit state).1
      (rest.foldl relation.visit state).2 := by
  induction rest generalizing done state with
  | nil =>
      rw [List.append_nil] at split
      exact split ▸ covers
  | cons node rest ih =>
      exact ih (split.trans (List.append_cons ..)) (relation.visit state node)
        (covers.visit consistent (split ▸ isOrder))

end Covers

theorem components_eq (relation : Relation) :
    components relation = ((finishOrder relation).foldl relation.visit
      (Array.replicate relation.size false, [])).2.reverse :=
  rfl

/-- The two passes find the components of every relation. -/
theorem components_findsComponents : FindsComponents components := by
  intro relation consistent
  have isOrder := finishOrder_isFinishOrder consistent
  have final := Covers.upto consistent isOrder (List.nil_append _).symm
    (Array.replicate relation.size false, []) (.start relation)
  rw [components_eq]
  refine ⟨?_, fun node => ?_, by simpa using final.inhabited, by simpa using final.mem_iff⟩
  · exact (List.reverse_perm _).flatten.nodup_iff.mpr final.once
  · rw [(List.reverse_perm _).flatten.mem_iff, final.mem_flatten]
    refine and_iff_left_of_imp fun inside => (final.entered_iff node inside).mpr ?_
    exact ⟨node, (isOrder.mem_iff node).mpr inside, .refl relation node⟩

/-! ## Largest components -/

/-- The larger one of what is the largest so far, if anything is, and the next members. -/
def larger (best : Option (List Nat)) (members : List Nat) : Option (List Nat) :=
  match best with
  | none => some members
  | some largest => if largest.length ≤ members.length then some members else best

theorem exists_foldl_larger (rest : List (List Nat)) (best : List Nat) :
    ∃ largest ∈ best :: rest, rest.foldl larger (some best) = some largest ∧
      ∀ members ∈ best :: rest, members.length ≤ largest.length := by
  induction rest generalizing best with
  | nil => exact ⟨best, List.mem_cons_self .., rfl, by simp⟩
  | cons next rest ih =>
      simp only [List.foldl_cons, larger]
      split_ifs with atLeast
      · rcases ih next with ⟨largest, member, same, longest⟩
        refine ⟨largest, List.mem_cons_of_mem _ member, same, ?_⟩
        exact List.forall_mem_cons.mpr
          ⟨atLeast.trans (longest next (List.mem_cons_self ..)), longest⟩
      · rcases ih best with ⟨largest, member, same, longest⟩
        rcases List.forall_mem_cons.mp longest with ⟨first, others⟩
        refine ⟨largest, ?_, same, ?_⟩
        · rcases List.mem_cons.mp member with same | later
          · exact same ▸ List.mem_cons_self ..
          · exact List.mem_cons_of_mem _ (List.mem_cons_of_mem _ later)
        · exact List.forall_mem_cons.mpr
            ⟨first, List.forall_mem_cons.mpr ⟨by omega, others⟩⟩

/-- Of some components none is larger than the largest. -/
theorem exists_largest {components : List (List Nat)} (inhabited : components ≠ []) :
    ∃ largest ∈ components, largest? components = some largest ∧
      ∀ members ∈ components, members.length ≤ largest.length := by
  rcases components with _ | ⟨first, rest⟩
  · exact absurd rfl inhabited
  · exact exists_foldl_larger rest first

end JourneyTimes.Components
