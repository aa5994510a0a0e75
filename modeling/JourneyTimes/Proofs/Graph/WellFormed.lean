import JourneyTimes.Graph.Basic
import JourneyTimes.Proofs.Graph.FirstOut
import JourneyTimes.Proofs.Outcome

/-!
# Graphs of networks are well-formed

In a graph made from a network nodes and links have their positions as
numbers, both ends of every link are nodes, and the links at a node are found
completely and in order.
-/

namespace JourneyTimes.Graph

variable {α : Type}

/-- The end of a link that following it in a direction starts from. -/
def Link.start (link : Link α) : Direction → Nat
  | .outgoing => link.origin
  | .incoming => link.destination

/-- What the graph of any network is. -/
structure WellFormed (graph : Graph α) : Prop where
  node_index : ∀ (position : Nat) (node : Node α),
    graph.nodes[position]? = some node → node.index = position
  link_index : ∀ (position : Nat) (link : Link α),
    graph.links[position]? = some link → link.index = position
  origin_lt : ∀ link ∈ graph.links, link.origin < graph.nodes.size
  destination_lt : ∀ link ∈ graph.links, link.destination < graph.nodes.size
  outgoing_eq : graph.outgoing =
    FirstOut.ofKeys graph.nodes.size (graph.links.toList.map (·.origin))
  incoming_eq : graph.incoming =
    FirstOut.ofKeys graph.nodes.size (graph.links.toList.map (·.destination))

/-- A link is found by its number. -/
theorem WellFormed.getElem?_index {graph : Graph α} (wellFormed : graph.WellFormed)
    {link : Link α} (member : link ∈ graph.links) : graph.links[link.index]? = some link := by
  rcases Array.mem_iff_getElem?.mp member with ⟨position, found⟩
  rw [wellFormed.link_index position link found]
  exact found

/-! ## Numbers of nodes -/

theorem forM_checkNode {graph : Graph α} {nodes : List Nat}
    (inside : ∀ node ∈ nodes, node < graph.size) : nodes.forM graph.checkNode = .ok () := by
  induction nodes with
  | nil => rfl
  | cons node nodes ih =>
      rcases List.forall_mem_cons.mp inside with ⟨first, rest⟩
      have checked : graph.checkNode node = .ok () := if_pos first
      change (graph.checkNode node >>= fun _ => nodes.forM graph.checkNode) = .ok ()
      rw [checked]
      exact ih rest

/-- Only numbers of nodes are accepted. -/
theorem lt_of_checkNode {graph : Graph α} {node : Nat} (checked : graph.checkNode node = .ok ()) :
    node < graph.size := by
  unfold checkNode at checked
  split_ifs at checked with inside
  exact inside

theorem lt_of_forM_checkNode {graph : Graph α} {nodes : List Nat}
    (checked : nodes.forM graph.checkNode = .ok ()) : ∀ node ∈ nodes, node < graph.size :=
  fun node member => lt_of_checkNode (forall_of_forM_eq_ok checked node member)

/-- Only a number that no node has is refused. -/
theorem exists_of_forM_checkNode_error {graph : Graph α} {nodes : List Nat} {error : Error}
    (refused : nodes.forM graph.checkNode = .error error) :
    ∃ node ∈ nodes, graph.size ≤ node ∧ error = .nodeOutOfRange node := by
  induction nodes with
  | nil => cases refused
  | cons node nodes ih =>
      change (graph.checkNode node >>= fun _ => nodes.forM graph.checkNode) = .error error
        at refused
      by_cases inside : node < graph.size
      · have checked : graph.checkNode node = .ok () := if_pos inside
        rw [checked, ok_bind] at refused
        rcases ih refused with ⟨other, member, outside⟩
        exact ⟨other, List.mem_cons_of_mem _ member, outside⟩
      · have checked : graph.checkNode node = .error (.nodeOutOfRange node) := if_neg inside
        rw [checked] at refused
        cases refused
        exact ⟨node, List.mem_cons_self .., Nat.le_of_not_lt inside, rfl⟩

/-! ## Links at a node -/

theorem mem_links_of_mem_linksAt {graph : Graph α} {direction : Direction} {node : Nat}
    {link : Link α} (member : link ∈ graph.linksAt direction node) : link ∈ graph.links := by
  rcases List.mem_filterMap.mp member with ⟨index, -, found⟩
  exact Array.mem_of_getElem? found

/-- Looking up the positions of the items with a key gives these items. -/
theorem filterMap_positionsOf {β : Type} (items : List β) (key : β → Nat) (node : Nat) :
    (FirstOut.positionsOf (items.map key).zipIdx node).filterMap (items[·]?) =
      items.filter fun item => key item == node := by
  have look : ∀ pair ∈ items.zipIdx, items[pair.2]? = some pair.1 := by
    rintro ⟨item, position⟩ member
    exact List.mk_mem_zipIdx_iff_getElem?.mp member
  calc (FirstOut.positionsOf (items.map key).zipIdx node).filterMap (items[·]?)
      = (items.zipIdx.filter fun pair => key pair.1 == node).filterMap
          fun pair => items[pair.2]? := by
        simp [FirstOut.positionsOf, List.zipIdx_map, List.filter_map, Function.comp_def,
          List.filterMap_map]
    _ = (items.zipIdx.filter fun pair => key pair.1 == node).map Prod.fst := by
        rw [← List.filterMap_eq_map]
        exact List.filterMap_congr fun pair member =>
          look pair (List.mem_filter.mp member).1
    _ = items.filter fun item => key item == node := by
        have fsts : items.zipIdx.map Prod.fst = items := by simp
        conv_rhs => rw [← fsts, List.filter_map]
        rfl

/-- The links at a node are those that start there, in increasing order. -/
theorem WellFormed.linksAt_eq {graph : Graph α} (wellFormed : graph.WellFormed)
    (direction : Direction) {node : Nat} (inside : node < graph.size) :
    graph.linksAt direction node =
      graph.links.toList.filter fun link => link.start direction == node := by
  have found (key : Link α → Nat) (bound : ∀ link ∈ graph.links, key link < graph.nodes.size) :
      ((FirstOut.ofKeys graph.nodes.size (graph.links.toList.map key)).linksAt node).filterMap
          (fun index => graph.links[index]?) =
        graph.links.toList.filter fun link => key link == node := by
    have keys : ∀ number ∈ graph.links.toList.map key, number < graph.nodes.size := by
      simpa using bound
    rw [FirstOut.linksAt_ofKeys _ _ keys inside, ← filterMap_positionsOf]
    simp
  cases direction with
  | outgoing =>
      simpa [linksAt, Link.start, wellFormed.outgoing_eq] using
        found (·.origin) wellFormed.origin_lt
  | incoming =>
      simpa [linksAt, Link.start, wellFormed.incoming_eq] using
        found (·.destination) wellFormed.destination_lt

theorem WellFormed.mem_linksAt {graph : Graph α} (wellFormed : graph.WellFormed)
    {direction : Direction} {node : Nat} (inside : node < graph.size) {link : Link α} :
    link ∈ graph.linksAt direction node ↔
      link ∈ graph.links ∧ link.start direction = node := by
  simp [wellFormed.linksAt_eq direction inside]

theorem WellFormed.start_lt {graph : Graph α} (wellFormed : graph.WellFormed)
    {link : Link α} (member : link ∈ graph.links) (direction : Direction) :
    link.start direction < graph.size := by
  cases direction with
  | outgoing => exact wellFormed.origin_lt link member
  | incoming => exact wellFormed.destination_lt link member

theorem WellFormed.target_lt {graph : Graph α} (wellFormed : graph.WellFormed)
    {link : Link α} (member : link ∈ graph.links) (direction : Direction) :
    link.target direction < graph.size := by
  cases direction with
  | outgoing => exact wellFormed.destination_lt link member
  | incoming => exact wellFormed.origin_lt link member

/-! ## Graphs of networks -/

/-- A number that is filed under an id is that of a node with the id. -/
theorem exists_of_positions (nodes : List (Node α)) (start : Std.HashMap String Nat) {id : String}
    {index : Nat} (filed : (nodes.foldl
      (fun positions node => positions.insert node.id node.index) start)[id]? = some index) :
    (∃ node ∈ nodes, node.id = id ∧ node.index = index) ∨ start[id]? = some index := by
  induction nodes generalizing start with
  | nil => exact .inr filed
  | cons node nodes ih =>
      rcases ih (start.insert node.id node.index) filed with ⟨other, member, known⟩ | found
      · exact .inl ⟨other, List.mem_cons_of_mem _ member, known⟩
      · rw [Std.HashMap.getElem?_insert] at found
        split_ifs at found with same
        · exact .inl ⟨node, List.mem_cons_self .., beq_iff_eq.mp same, Option.some.inj found⟩
        · exact .inr found

theorem resolve_lt {positions : Std.HashMap String Nat} {bound : Nat}
    (small : ∀ (id : String) (index : Nat), positions[id]? = some index → index < bound)
    {id : String} {index : Nat} (resolved : resolve positions id = .ok index) :
    index < bound := by
  unfold resolve at resolved
  split at resolved
  · rename_i found
    cases resolved
    exact small id index found
  · cases resolved

/-- A link of a network keeps its position and all that belongs to it, and its
ends are resolved. -/
theorem Link.ofNetwork_eq_ok {positions : Std.HashMap String Nat} {link : Network.Link α}
    {index : Nat} {made : Link α} (done : Link.ofNetwork positions link index = .ok made) :
    made.index = index ∧ resolve positions link.origin = .ok made.origin ∧
      resolve positions link.destination = .ok made.destination ∧
      made.length = link.length ∧ made.stretch = link.stretch := by
  unfold Link.ofNetwork at done
  rcases bind_eq_ok.mp done with ⟨origin, originFound, done⟩
  rcases bind_eq_ok.mp done with ⟨destination, destinationFound, done⟩
  cases done
  exact ⟨rfl, originFound, destinationFound, rfl, rfl⟩

/-- Every link of a graph is one of the network. -/
theorem ofNetwork_link {identity : Nat} {network : Network α} {graph : Graph α}
    (made : ofNetwork identity network = .ok graph) {link : Link α}
    (member : link ∈ graph.links) :
    ∃ original ∈ network.links, link.length = original.length ∧
      link.stretch = original.stretch := by
  unfold ofNetwork at made
  rcases bind_eq_ok.mp made with ⟨links, linked, made⟩
  cases made
  rcases exists_of_mapM_eq_ok linked (by simpa using member) with
    ⟨⟨original, index⟩, position, done⟩
  rcases Link.ofNetwork_eq_ok done with ⟨-, -, -, length, stretch⟩
  have found := List.mk_mem_zipIdx_iff_getElem?.mp position
  exact ⟨original, by simpa using List.mem_of_getElem? found, length, stretch⟩

/-- Every graph that is made from a network is well-formed. -/
theorem ofNetwork_wellFormed {identity : Nat} {network : Network α} {graph : Graph α}
    (made : ofNetwork identity network = .ok graph) : graph.WellFormed := by
  unfold ofNetwork at made
  dsimp only at made
  generalize nodesEq : network.nodes.toList.zipIdx.map
    (fun pair => Node.ofNetwork pair.1 pair.2) = nodes at made
  generalize positionsEq : nodes.foldl
    (fun positions node => positions.insert node.id node.index)
    (∅ : Std.HashMap String Nat) = positions at made
  cases linked : network.links.toList.zipIdx.mapM
      (fun pair => Link.ofNetwork positions pair.1 pair.2) with
  | error error =>
      rw [linked] at made
      cases made
  | ok links =>
      rw [linked] at made
      cases made
      have nodeIndex : ∀ (position : Nat) (node : Node α),
          nodes[position]? = some node → node.index = position := by
        intro position node found
        simp only [← nodesEq, List.getElem?_map, List.getElem?_zipIdx, Option.map_eq_some_iff]
          at found
        rcases found with ⟨pair, ⟨original, -, rfl⟩, rfl⟩
        simp [Node.ofNetwork]
      have filed : ∀ (id : String) (index : Nat),
          positions[id]? = some index → index < nodes.length := by
        intro id index found
        rw [← positionsEq] at found
        rcases exists_of_positions nodes ∅ found with ⟨node, member, -, rfl⟩ | none
        · rcases List.mem_iff_getElem.mp member with ⟨position, inside, rfl⟩
          rw [nodeIndex position _ (List.getElem?_eq_getElem inside)]
          exact inside
        · simp at none
      have linkFacts : ∀ (position : Nat) (link : Link α), links[position]? = some link →
          link.index = position ∧ link.origin < nodes.length ∧
            link.destination < nodes.length := by
        intro position link found
        rcases List.getElem?_eq_some_iff.mp found with ⟨inside, rfl⟩
        rcases List.forall₂_iff_get.mp (forall₂_of_mapM_eq_ok linked) with ⟨lengths, each⟩
        rcases Link.ofNetwork_eq_ok (each position (by omega) inside) with
          ⟨index, origin, destination, -, -⟩
        exact ⟨by simpa using index, resolve_lt filed origin, resolve_lt filed destination⟩
      have each : ∀ link ∈ links, link.origin < nodes.length ∧
          link.destination < nodes.length := by
        intro link member
        rcases List.mem_iff_getElem.mp member with ⟨position, inside, rfl⟩
        exact (linkFacts position _ (List.getElem?_eq_getElem inside)).2
      exact
        { node_index := by simpa using nodeIndex
          link_index := fun position link found =>
            (linkFacts position link (by simpa using found)).1
          origin_lt := fun link member => (each link (by simpa using member)).1
          destination_lt := fun link member => (each link (by simpa using member)).2
          outgoing_eq := rfl
          incoming_eq := rfl }

/-- A graph files its nodes one after another. -/
theorem ofNetwork_positions {identity : Nat} {network : Network α} {graph : Graph α}
    (made : ofNetwork identity network = .ok graph) :
    graph.positions = graph.nodes.toList.foldl
      (fun positions node => positions.insert node.id node.index) ∅ := by
  unfold ofNetwork at made
  rcases bind_eq_ok.mp made with ⟨links, -, made⟩
  cases made
  rfl

/-- An id is that of the node with the number found for it. -/
theorem ofNetwork_nodeIndex? {identity : Nat} {network : Network α} {graph : Graph α}
    (made : ofNetwork identity network = .ok graph) {id : String} {index : Nat}
    (found : graph.nodeIndex? id = some index) :
    index < graph.size ∧ graph.nodeId index = id := by
  rw [nodeIndex?, ofNetwork_positions made] at found
  rcases exists_of_positions _ ∅ found with ⟨node, member, rfl, rfl⟩ | none
  · rcases List.mem_iff_getElem?.mp member with ⟨position, nodeFound⟩
    rw [Array.getElem?_toList] at nodeFound
    rw [(ofNetwork_wellFormed made).node_index position node nodeFound, nodeId, nodeFound]
    exact ⟨(Array.getElem?_eq_some_iff.mp nodeFound).1, rfl⟩
  · simp at none

/-! ## Small graphs -/

/-- Two nodes with a link each way. -/
def shuttle [Scalar α] : Graph α where
  identity := 0
  nodes := #[⟨0, "a", ⟨0, 0⟩⟩, ⟨1, "b", ⟨Scalar.ofNat 100, 0⟩⟩]
  links := #[⟨0, "ab", 0, 1, Scalar.ofNat 100, Scalar.ofNat 10, none⟩,
    ⟨1, "ba", 1, 0, Scalar.ofNat 100, Scalar.ofNat 10, none⟩]
  positions := ∅
  outgoing := FirstOut.ofKeys 2 [0, 1]
  incoming := FirstOut.ofKeys 2 [1, 0]

/-- Both links of the shuttle are alike. -/
theorem shuttle_links [Scalar α] {link : Link α} (member : link ∈ (shuttle : Graph α).links) :
    link.length = Scalar.ofNat 100 ∧ link.freeSpeed = Scalar.ofNat 10 := by
  rcases (by simpa [shuttle] using member) with rfl | rfl <;> exact ⟨rfl, rfl⟩

theorem shuttle_wellFormed [Scalar α] : (shuttle : Graph α).WellFormed where
  node_index := by
    intro position node found
    rcases position with _ | _ | position <;> simp [shuttle] at found <;> simp [← found]
  link_index := by
    intro position link found
    rcases position with _ | _ | position <;> simp [shuttle] at found <;> simp [← found]
  origin_lt := by simp [shuttle]
  destination_lt := by simp [shuttle]
  outgoing_eq := rfl
  incoming_eq := rfl

/-- Two ways from the first node to the last: a short slow link, and two long
fast ones over the other node. -/
def triangle [Scalar α] : Graph α where
  identity := 0
  nodes := #[⟨0, "a", ⟨0, 0⟩⟩, ⟨1, "b", ⟨Scalar.ofNat 1000, 0⟩⟩,
    ⟨2, "c", ⟨0, Scalar.ofNat 100⟩⟩]
  links := #[⟨0, "ab", 0, 1, Scalar.ofNat 1000, Scalar.ofNat 100, none⟩,
    ⟨1, "bc", 1, 2, Scalar.ofNat 1000, Scalar.ofNat 100, none⟩,
    ⟨2, "ac", 0, 2, Scalar.ofNat 100, Scalar.ofNat 2, none⟩]
  positions := ∅
  outgoing := FirstOut.ofKeys 3 [0, 1, 0]
  incoming := FirstOut.ofKeys 3 [1, 2, 2]

theorem triangle_wellFormed [Scalar α] : (triangle : Graph α).WellFormed where
  node_index := by
    intro position node found
    rcases position with _ | _ | _ | position <;> simp [triangle] at found <;> simp [← found]
  link_index := by
    intro position link found
    rcases position with _ | _ | _ | position <;> simp [triangle] at found <;> simp [← found]
  origin_lt := by simp [triangle]
  destination_lt := by simp [triangle]
  outgoing_eq := rfl
  incoming_eq := rfl

end JourneyTimes.Graph
