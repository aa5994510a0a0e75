import JourneyTimes.Network.Clean
import JourneyTimes.Proofs.Graph.WellFormed
import Mathlib.Data.List.Nodup

/-!
# Well-formed networks

A network files every id under the position of the one node that has it, and both ends
of its links are nodes.  Adding nodes and links keeps this, and so do filtering by mode
and cleaning, whose links are links of the network that they are given.

A graph can be made of every well-formed network.  Nodes and links have their positions
as numbers there, and an id belongs to the same node as before.
-/

namespace JourneyTimes

variable {α : Type}

namespace Network

/-- The ids of the nodes, in their order. -/
def nodeIds (network : Network α) : List String := network.nodes.toList.map (·.id)

/-- What a network promises: ids are those of the nodes at their positions, and both ends
of every link exist. -/
structure WellFormed (network : Network α) : Prop where
  filed : ∀ (id : String) (position : Nat),
    network.positions[id]? = some position ↔ network.nodeIds[position]? = some id
  ends_known : ∀ link ∈ network.links,
    link.origin ∈ network.nodeIds ∧ link.destination ∈ network.nodeIds

theorem mem_positions_iff {network : Network α} {id : String} :
    id ∈ network.positions ↔ ∃ position, network.positions[id]? = some position := by
  rw [Std.HashMap.mem_iff_isSome_getElem?, Option.isSome_iff_exists]

theorem getElem?_nodeIds {network : Network α} {position : Nat} {id : String} :
    network.nodeIds[position]? = some id ↔
      ∃ node, network.nodes[position]? = some node ∧ node.id = id := by
  rw [nodeIds, List.getElem?_map, Option.map_eq_some_iff, Array.getElem?_toList]

namespace WellFormed

variable {network : Network α}

protected theorem empty : (empty : Network α).WellFormed where
  filed := by simp [Network.empty, nodeIds]
  ends_known := by simp [Network.empty]

theorem mem_positions (wellFormed : network.WellFormed) {id : String} :
    id ∈ network.positions ↔ id ∈ network.nodeIds := by
  rw [mem_positions_iff, List.mem_iff_getElem?]
  exact exists_congr fun position => wellFormed.filed id position

/-- No two nodes have the same id. -/
theorem nodup_nodeIds (wellFormed : network.WellFormed) : network.nodeIds.Nodup := by
  rw [List.nodup_iff_injective_get]
  intro first second same
  have filed (position : Fin network.nodeIds.length) :
      network.positions[network.nodeIds.get position]? = some position.val :=
    (wellFormed.filed _ _).mpr (List.getElem?_eq_getElem position.isLt)
  have firstFiled := filed first
  rw [same, filed second] at firstFiled
  exact Fin.ext (Option.some.inj firstFiled).symm

/-- The node with an id is the one at its position. -/
theorem node?_eq (wellFormed : network.WellFormed) {position : Nat} {node : Node α}
    (found : network.nodes[position]? = some node) : network.node? node.id = some node := by
  have filed := (wellFormed.filed node.id position).mpr
    (getElem?_nodeIds.mpr ⟨node, found, rfl⟩)
  rw [node?, filed, Option.bind_some, found]

theorem node?_id (wellFormed : network.WellFormed) {id : String} {node : Node α}
    (found : network.node? id = some node) : node.id = id := by
  rcases Option.bind_eq_some_iff.mp found with ⟨position, filed, nodeFound⟩
  rcases getElem?_nodeIds.mp ((wellFormed.filed id position).mp filed) with
    ⟨other, otherFound, rfl⟩
  rw [Option.some.inj (nodeFound.symm.trans otherFound)]

end WellFormed

/-! ## Adding nodes -/

theorem addNode_of_fresh {network : Network α} {id : String} (place : Point α)
    (fresh : network.positions[id]? = none) :
    network.addNode id place =
      { nodes := network.nodes.push ⟨id, place⟩
        links := network.links
        positions := network.positions.insert id network.nodes.size } := by
  rw [addNode, fresh]

theorem addNode_of_filed {network : Network α} {id : String} {position : Nat} (place : Point α)
    (filed : network.positions[id]? = some position) :
    network.addNode id place =
      { network with
        nodes := network.nodes.modify position fun node => { node with place } } := by
  rw [addNode, filed]

theorem links_addNode (network : Network α) (id : String) (place : Point α) :
    (network.addNode id place).links = network.links := by
  unfold addNode
  split <;> rfl

theorem nodeIds_addNode_of_filed {network : Network α} {id : String} {position : Nat}
    (place : Point α) (filed : network.positions[id]? = some position) :
    (network.addNode id place).nodeIds = network.nodeIds := by
  rw [addNode_of_filed place filed]
  apply List.ext_getElem?
  intro index
  rw [nodeIds, nodeIds, List.getElem?_map, List.getElem?_map, Array.getElem?_toList,
    Array.getElem?_toList, Array.getElem?_modify]
  split_ifs
  · rw [Option.map_map]
    rfl
  · rfl

theorem nodeIds_addNode_of_fresh {network : Network α} {id : String} (place : Point α)
    (fresh : network.positions[id]? = none) :
    (network.addNode id place).nodeIds = network.nodeIds ++ [id] := by
  rw [addNode_of_fresh place fresh]
  simp [nodeIds]

/-- Adding a node adds its id, unless that is known. -/
theorem mem_nodeIds_addNode {network : Network α} (wellFormed : network.WellFormed) {id : String}
    (place : Point α) {other : String} :
    other ∈ (network.addNode id place).nodeIds ↔ other ∈ network.nodeIds ∨ other = id := by
  cases filed : network.positions[id]? with
  | none => rw [nodeIds_addNode_of_fresh place filed, List.mem_append, List.mem_singleton]
  | some position =>
      rw [nodeIds_addNode_of_filed place filed, iff_self_or]
      rintro rfl
      exact List.mem_of_getElem? ((wellFormed.filed other position).mp filed)

namespace WellFormed

variable {network : Network α}

protected theorem addNode (wellFormed : network.WellFormed) (id : String) (place : Point α) :
    (network.addNode id place).WellFormed where
  filed := by
    intro other position
    cases filed : network.positions[id]? with
    | none =>
        have size : network.nodes.size = network.nodeIds.length := by simp [nodeIds]
        rw [nodeIds_addNode_of_fresh place filed, addNode_of_fresh place filed,
          Std.HashMap.getElem?_insert, size]
        have last : (network.nodeIds ++ [id])[position]? = some other ↔
            network.nodeIds[position]? = some other ∨
              position = network.nodeIds.length ∧ other = id := by
          rw [List.getElem?_append, List.getElem?_singleton]
          by_cases inside : position < network.nodeIds.length
          · simp [inside, Nat.ne_of_lt inside]
          · have apart : network.nodeIds[position]? = none := by simpa using inside
            rw [if_neg inside, apart]
            by_cases here : position = network.nodeIds.length
            · simp [here, eq_comm]
            · have beyond : position - network.nodeIds.length ≠ 0 := by omega
              simp [here, beyond]
        rw [last, ← wellFormed.filed other position]
        by_cases same : id = other
        · subst same
          simp [filed, eq_comm]
        · simp [same, Ne.symm same]
    | some known =>
        rw [nodeIds_addNode_of_filed place filed, addNode_of_filed place filed]
        exact wellFormed.filed other position
  ends_known := by
    intro link member
    rw [links_addNode] at member
    rw [mem_nodeIds_addNode wellFormed, mem_nodeIds_addNode wellFormed]
    rcases wellFormed.ends_known link member with ⟨origin, destination⟩
    exact ⟨.inl origin, .inl destination⟩

end WellFormed

/-- Adding a node decides where its id is, and leaves the other nodes. -/
theorem node?_addNode {network : Network α} (wellFormed : network.WellFormed) (id : String)
    (place : Point α) (other : String) :
    (network.addNode id place).node? other =
      if other = id then some ⟨id, place⟩ else network.node? other := by
  cases filed : network.positions[id]? with
  | none =>
      rw [node?, addNode_of_fresh place filed]
      dsimp only
      rw [Std.HashMap.getElem?_insert]
      by_cases same : other = id
      · subst same
        rw [if_pos (beq_self_eq_true other), if_pos rfl, Option.bind_some, Array.getElem?_push_size]
      · rw [if_neg (fun equal => same (beq_iff_eq.mp equal).symm), if_neg same, node?]
        refine Option.bind_congr fun position otherFiled => ?_
        rcases getElem?_nodeIds.mp ((wellFormed.filed other position).mp otherFiled) with
          ⟨node, found, -⟩
        have inside := (Array.getElem?_eq_some_iff.mp found).1
        rw [Array.getElem?_push, if_neg (Nat.ne_of_lt inside)]
  | some position =>
      rw [node?, addNode_of_filed place filed]
      dsimp only
      by_cases same : other = id
      · subst same
        rw [filed, if_pos rfl, Option.bind_some, Array.getElem?_modify, if_pos rfl]
        rcases getElem?_nodeIds.mp ((wellFormed.filed other position).mp filed) with
          ⟨node, found, rfl⟩
        rw [found]
        rfl
      · rw [if_neg same, node?]
        refine Option.bind_congr fun otherPosition otherFiled => ?_
        rw [Array.getElem?_modify, if_neg]
        rintro rfl
        have otherId := (wellFormed.filed other position).mp otherFiled
        rw [(wellFormed.filed id position).mp filed] at otherId
        exact same (Option.some.inj otherId).symm

/-! ## Many nodes -/

/-- Add nodes one after another. -/
def withNodes (network : Network α) (nodes : List (Node α)) : Network α :=
  nodes.foldl (fun network node => network.addNode node.id node.place) network

theorem withNodes_cons (network : Network α) (node : Node α) (nodes : List (Node α)) :
    network.withNodes (node :: nodes) = (network.addNode node.id node.place).withNodes nodes :=
  rfl

theorem WellFormed.withNodes {network : Network α} (wellFormed : network.WellFormed)
    (nodes : List (Node α)) : (network.withNodes nodes).WellFormed := by
  induction nodes generalizing network with
  | nil => exact wellFormed
  | cons node nodes ih => exact ih (wellFormed.addNode node.id node.place)

theorem mem_nodeIds_withNodes {network : Network α} (wellFormed : network.WellFormed)
    (nodes : List (Node α)) {id : String} :
    id ∈ (network.withNodes nodes).nodeIds ↔ id ∈ network.nodeIds ∨ id ∈ nodes.map (·.id) := by
  induction nodes generalizing network with
  | nil => simp [Network.withNodes]
  | cons node nodes ih =>
      rw [withNodes_cons, ih (wellFormed.addNode node.id node.place),
        mem_nodeIds_addNode wellFormed, List.map_cons, List.mem_cons, or_assoc]

theorem node?_withNodes_of_not_mem {network : Network α} (wellFormed : network.WellFormed)
    {nodes : List (Node α)} {id : String} (stranger : id ∉ nodes.map (·.id)) :
    (network.withNodes nodes).node? id = network.node? id := by
  induction nodes generalizing network with
  | nil => rfl
  | cons node nodes ih =>
      rw [List.map_cons, List.mem_cons, not_or] at stranger
      rw [withNodes_cons, ih (wellFormed.addNode node.id node.place) stranger.2,
        node?_addNode wellFormed, if_neg stranger.1]

/-- Of nodes that have different ids each is found. -/
theorem node?_withNodes {network : Network α} (wellFormed : network.WellFormed)
    {nodes : List (Node α)} (distinct : (nodes.map (·.id)).Nodup) {node : Node α}
    (member : node ∈ nodes) : (network.withNodes nodes).node? node.id = some node := by
  induction nodes generalizing network with
  | nil => cases member
  | cons first nodes ih =>
      rw [List.map_cons, List.nodup_cons] at distinct
      rw [withNodes_cons]
      rcases List.mem_cons.mp member with rfl | later
      · rw [node?_withNodes_of_not_mem (wellFormed.addNode _ _) distinct.1,
          node?_addNode wellFormed, if_pos rfl]
      · exact ih (wellFormed.addNode first.id first.place) distinct.2 later

/-- Nodes that have new ids are added at the end. -/
theorem nodes_withNodes {network : Network α} (wellFormed : network.WellFormed)
    {nodes : List (Node α)} (distinct : (nodes.map (·.id)).Nodup)
    (fresh : ∀ node ∈ nodes, node.id ∉ network.nodeIds) :
    (network.withNodes nodes).nodes.toList = network.nodes.toList ++ nodes := by
  induction nodes generalizing network with
  | nil => simp [Network.withNodes]
  | cons node nodes ih =>
      rw [List.map_cons, List.nodup_cons] at distinct
      have unknown : network.positions[node.id]? = none := by
        apply Std.HashMap.getElem?_eq_none
        rw [wellFormed.mem_positions]
        exact fresh node (List.mem_cons_self ..)
      rw [withNodes_cons, ih (wellFormed.addNode node.id node.place) distinct.2,
        addNode_of_fresh node.place unknown]
      · simp
      · intro other member
        rw [mem_nodeIds_addNode wellFormed, not_or]
        refine ⟨fresh other (List.mem_cons_of_mem _ member), fun same => distinct.1 ?_⟩
        exact same ▸ List.mem_map_of_mem member

/-! ## Adding links -/

theorem unknownId?_eq_none {network : Network α} {ids : List String} :
    network.unknownId? ids = none ↔ ∀ id ∈ ids, id ∈ network.positions := by
  simp [unknownId?]

/-- A link is added at the end if both its ends exist, and otherwise it is refused. -/
theorem addLink_eq_ok {network next : Network α} {link : Link α} :
    network.addLink link = .ok next ↔
      (link.origin ∈ network.positions ∧ link.destination ∈ network.positions) ∧
        { network with links := network.links.push link } = next := by
  have known : network.unknownId? [link.origin, link.destination] = none ↔
      link.origin ∈ network.positions ∧ link.destination ∈ network.positions := by
    rw [unknownId?_eq_none]
    simp
  rw [← known, addLink]
  cases network.unknownId? [link.origin, link.destination] <;> simp

namespace WellFormed

theorem addLink {network next : Network α} (wellFormed : network.WellFormed) {link : Link α}
    (added : network.addLink link = .ok next) : next.WellFormed := by
  rcases addLink_eq_ok.mp added with ⟨⟨origin, destination⟩, rfl⟩
  refine ⟨wellFormed.filed, ?_⟩
  intro other member
  rcases Array.mem_push.mp member with old | rfl
  · exact wellFormed.ends_known other old
  · exact ⟨wellFormed.mem_positions.mp origin, wellFormed.mem_positions.mp destination⟩

theorem addLinks {links : List (Link α)} {network next : Network α}
    (wellFormed : network.WellFormed)
    (added : links.foldlM Network.addLink network = .ok next) : next.WellFormed := by
  induction links generalizing network with
  | nil =>
      cases added
      exact wellFormed
  | cons link links ih =>
      rw [List.foldlM_cons] at added
      rcases bind_eq_ok.mp added with ⟨longer, first, rest⟩
      exact ih (wellFormed.addLink first) rest

/-- Links that join some nodes make a network with them. -/
theorem ofParts {nodes : List (Node α)} {links : List (Link α)}
    (joined : ∀ link ∈ links,
      link.origin ∈ nodes.map (·.id) ∧ link.destination ∈ nodes.map (·.id)) :
    (ofParts nodes links).WellFormed where
  filed := (WellFormed.empty.withNodes nodes).filed
  ends_known := by
    intro link member
    have known {id : String} (onList : id ∈ nodes.map (·.id)) :
        id ∈ ((empty : Network α).withNodes nodes).nodeIds :=
      (mem_nodeIds_withNodes WellFormed.empty nodes).mpr (.inr onList)
    rcases joined link (by simpa [Network.ofParts] using member) with ⟨origin, destination⟩
    exact ⟨known origin, known destination⟩

end WellFormed

/-! ## Parts of a network -/

/-- The ids of the ends of some links. -/
theorem contains_touched (links : List (Link α)) (start : Std.HashMap String Unit) {id : String} :
    (links.foldl (fun ids link =>
      (ids.insert link.origin ()).insert link.destination ()) start).contains id = true ↔
        start.contains id = true ∨ ∃ link ∈ links, link.origin = id ∨ link.destination = id := by
  induction links generalizing start with
  | nil => simp
  | cons link links ih =>
      rw [List.foldl_cons, ih]
      simp only [Std.HashMap.contains_insert, Bool.or_eq_true, beq_iff_eq, List.exists_mem_cons_iff]
      simp only [or_assoc, or_left_comm]

/-- Filtering by mode keeps the links that are open to it. -/
theorem links_filterByMode (network : Network α) (mode : String) :
    (network.filterByMode mode).links.toList =
      network.links.toList.filter (·.hasMode mode) := rfl

/-- The network on a largest component, if components are found in some way. -/
def cleanBy (find : Components.Relation → List (List Nat)) (network : Network α) : Network α :=
  match Components.largest? (find network.relation) with
  | none => empty
  | some members => network.restrict members

theorem clean_eq_cleanBy (network : Network α) :
    network.clean = network.cleanBy Components.components := rfl

theorem mem_links_clean {network : Network α} {link : Link α}
    (member : link ∈ network.clean.links) : link ∈ network.links := by
  unfold clean at member
  split at member
  · simp [empty] at member
  · rw [restrict] at member
    simp only [List.mem_toArray, List.mem_filter, Array.mem_toList_iff] at member
    exact member.1

namespace WellFormed

variable {network : Network α}

theorem filterByMode (wellFormed : network.WellFormed) (mode : String) :
    (network.filterByMode mode).WellFormed := by
  refine ofParts fun link member => ?_
  have touched {id : String} (onLink : link.origin = id ∨ link.destination = id)
      (known : id ∈ network.nodeIds) :
      id ∈ (network.nodes.toList.filter fun node => Std.HashMap.contains
        ((network.links.toList.filter (·.hasMode mode)).foldl (fun ids link =>
          (ids.insert link.origin ()).insert link.destination ())
          (∅ : Std.HashMap String Unit)) node.id).map (·.id) := by
    rcases List.mem_map.mp known with ⟨node, nodeMember, rfl⟩
    refine List.mem_map_of_mem (List.mem_filter.mpr ⟨nodeMember, ?_⟩)
    exact (contains_touched _ _).mpr (.inr ⟨link, member, onLink⟩)
  have isLink : link ∈ network.links := Array.mem_toList_iff.mp (List.mem_of_mem_filter member)
  rcases wellFormed.ends_known link isLink with ⟨origin, destination⟩
  exact ⟨touched (.inl rfl) origin, touched (.inr rfl) destination⟩

theorem restrict (network : Network α) (positions : List Nat) :
    (network.restrict positions).WellFormed := by
  have bare : (Network.ofParts (network.nodes.toList.zipIdx.filterMap fun pair =>
      if positions.contains pair.2 then some pair.1 else none) []).WellFormed :=
    ofParts (by simp)
  refine ⟨bare.filed, fun link member => ?_⟩
  have joined := (List.mem_filter.mp (List.mem_toArray.mp member)).2
  rw [Bool.and_eq_true] at joined
  exact ⟨bare.mem_positions.mp joined.1, bare.mem_positions.mp joined.2⟩

theorem cleanBy (find : Components.Relation → List (List Nat)) (network : Network α) :
    (network.cleanBy find).WellFormed := by
  unfold Network.cleanBy
  split
  · exact .empty
  · exact restrict network _

theorem clean (network : Network α) : network.clean.WellFormed :=
  cleanBy Components.components network

end WellFormed

/-- What is left of a network after it has been filtered by modes and cleaned, any number of
times. -/
inductive Reduced (network : Network α) : Network α → Prop where
  | whole : Reduced network network
  | filterByMode {part : Network α} (reduced : Reduced network part) (mode : String) :
      Reduced network (part.filterByMode mode)
  | clean {part : Network α} (reduced : Reduced network part) : Reduced network part.clean

namespace Reduced

variable {network part : Network α}

/-- No links are added. -/
theorem mem_links (reduced : Reduced network part) {link : Link α} (member : link ∈ part.links) :
    link ∈ network.links := by
  induction reduced with
  | whole => exact member
  | filterByMode _ mode ih =>
      rw [← Array.mem_toList_iff, links_filterByMode] at member
      exact ih (Array.mem_toList_iff.mp (List.mem_of_mem_filter member))
  | clean _ ih => exact ih (mem_links_clean member)

theorem wellFormed (reduced : Reduced network part) (whole : network.WellFormed) :
    part.WellFormed := by
  induction reduced with
  | whole => exact whole
  | filterByMode _ mode ih => exact ih.filterByMode mode
  | clean _ _ => exact .clean _

end Reduced

end Network

/-! ## Graphs of networks -/

namespace Graph

theorem positions_of_not_mem {nodes : List (Node α)} {id : String}
    (stranger : id ∉ nodes.map (·.id)) (start : Std.HashMap String Nat) :
    (nodes.foldl (fun positions node => positions.insert node.id node.index) start)[id]? =
      start[id]? := by
  induction nodes generalizing start with
  | nil => rfl
  | cons node nodes ih =>
      rw [List.map_cons, List.mem_cons, not_or] at stranger
      rw [List.foldl_cons, ih stranger.2, Std.HashMap.getElem?_insert,
        if_neg fun equal => stranger.1 (beq_iff_eq.mp equal).symm]

/-- Nodes that have different ids are filed one and all. -/
theorem positions_of_nodup {nodes : List (Node α)} (distinct : (nodes.map (·.id)).Nodup)
    (start : Std.HashMap String Nat) {node : Node α} (member : node ∈ nodes) :
    (nodes.foldl (fun positions node => positions.insert node.id node.index) start)[node.id]? =
      some node.index := by
  induction nodes generalizing start with
  | nil => cases member
  | cons first nodes ih =>
      rw [List.map_cons, List.nodup_cons] at distinct
      rcases List.mem_cons.mp member with rfl | later
      · rw [List.foldl_cons, positions_of_not_mem distinct.1, Std.HashMap.getElem?_insert_self]
      · exact ih distinct.2 _ later

/-- A link of a graph that stands for one of a network: its ends are the numbers of the
nodes that the other one names. -/
structure Link.Depicts (network : Network α) (made : Link α) (link : Network.Link α) : Prop where
  id_eq : made.id = link.id
  origin : network.nodeIds[made.origin]? = some link.origin
  destination : network.nodeIds[made.destination]? = some link.destination
  length_eq : made.length = link.length
  freeSpeed_eq : made.freeSpeed = link.freeSpeed
  stretch_eq : made.stretch = link.stretch

/-- A graph that has the nodes and the links of a network, numbered by their positions. -/
structure Depicts (graph : Graph α) (network : Network α) : Prop where
  nodes_eq : graph.nodes.toList =
    network.nodes.toList.zipIdx.map fun (node, position) => Node.ofNetwork node position
  nodeIndex?_eq : ∀ id, graph.nodeIndex? id = network.positions[id]?
  links : List.Forall₂ (Link.Depicts network) graph.links.toList network.links.toList

end Graph

namespace Network.WellFormed

variable {network : Network α} (wellFormed : network.WellFormed)

include wellFormed

/-- A graph files ids under the positions of their nodes in the network. -/
theorem graph_positions (id : String) :
    ((network.nodes.toList.zipIdx.map fun (node, position) =>
        Graph.Node.ofNetwork node position).foldl
      (fun positions node => positions.insert node.id node.index)
      (∅ : Std.HashMap String Nat))[id]? = network.positions[id]? := by
  generalize nodesEq : (network.nodes.toList.zipIdx.map fun (node, position) =>
    Graph.Node.ofNetwork node position) = nodes
  have distinct : (nodes.map (·.id)).Nodup := by
    have ids : nodes.map (·.id) = network.nodeIds := by
      apply List.ext_getElem?
      intro position
      simp [← nodesEq, nodeIds, Graph.Node.ofNetwork, Function.comp_def]
    rw [ids]
    exact wellFormed.nodup_nodeIds
  apply Option.ext
  intro position
  rw [wellFormed.filed, getElem?_nodeIds]
  constructor
  · intro filed
    rcases Graph.exists_of_positions nodes ∅ filed with ⟨node, member, rfl, rfl⟩ | none
    · rw [← nodesEq] at member
      rcases List.mem_map.mp member with ⟨⟨original, position⟩, entry, rfl⟩
      have found := List.mk_mem_zipIdx_iff_getElem?.mp entry
      rw [Array.getElem?_toList] at found
      exact ⟨original, found, rfl⟩
    · simp at none
  · rintro ⟨node, found, rfl⟩
    have member : Graph.Node.ofNetwork node position ∈ nodes := by
      rw [← nodesEq]
      refine List.mem_map.mpr ⟨(node, position), ?_, rfl⟩
      exact List.mk_mem_zipIdx_iff_getElem?.mpr (by simpa using found)
    exact Graph.positions_of_nodup distinct ∅ member

theorem exists_resolve {positions : Std.HashMap String Nat}
    (same : ∀ id : String, positions[id]? = network.positions[id]?) {id : String}
    (known : id ∈ network.nodeIds) :
    ∃ position, Graph.resolve positions id = .ok position ∧
      network.nodeIds[position]? = some id := by
  rcases List.mem_iff_getElem?.mp known with ⟨position, found⟩
  refine ⟨position, ?_, found⟩
  rw [Graph.resolve, same, (wellFormed.filed id position).mpr found]

/-- A link of the network becomes one of the graph. -/
theorem exists_link {positions : Std.HashMap String Nat}
    (same : ∀ id : String, positions[id]? = network.positions[id]?) {link : Link α}
    (member : link ∈ network.links) (index : Nat) :
    ∃ made, Graph.Link.ofNetwork positions link index = .ok made ∧
      Graph.Link.Depicts network made link := by
  rcases wellFormed.ends_known link member with ⟨origin, destination⟩
  rcases wellFormed.exists_resolve same origin with ⟨first, resolved, firstFound⟩
  rcases wellFormed.exists_resolve same destination with ⟨last, resolved', lastFound⟩
  refine ⟨⟨index, link.id, first, last, link.length, link.freeSpeed, link.stretch⟩, ?_,
    rfl, firstFound, lastFound, rfl, rfl, rfl⟩
  rw [Graph.Link.ofNetwork, resolved, ok_bind, resolved', ok_bind]
  rfl

/-- A graph can be made of every well-formed network. -/
theorem exists_graph (identity : Nat) :
    ∃ graph, Graph.ofNetwork identity network = .ok graph := by
  have each (entry : Link α × Nat) (member : entry ∈ network.links.toList.zipIdx) :=
    wellFormed.exists_link wellFormed.graph_positions
      (Array.mem_toList_iff.mp (List.fst_mem_of_mem_zipIdx member)) entry.2
  rcases mapM_ok fun entry member => (each entry member).imp fun _ => And.left with
    ⟨links, linked⟩
  exact ⟨_, bind_eq_ok.mpr ⟨links, linked, rfl⟩⟩

/-- The graph of a well-formed network has the same nodes and links. -/
theorem depicts {identity : Nat} {graph : Graph α}
    (made : Graph.ofNetwork identity network = .ok graph) : graph.Depicts network := by
  rcases bind_eq_ok.mp made with ⟨links, linked, made⟩
  cases made
  refine ⟨rfl, wellFormed.graph_positions, ?_⟩
  rcases List.forall₂_iff_get.mp (forall₂_of_mapM_eq_ok linked) with ⟨lengths, each⟩
  rw [List.length_zipIdx] at lengths
  refine List.forall₂_iff_get.mpr ⟨lengths.symm, fun position inside within => ?_⟩
  have done := each position (by simpa using within) inside
  rcases wellFormed.exists_link wellFormed.graph_positions
      (Array.mem_toList_iff.mp (List.getElem_mem within)) position with ⟨link, same, stands⟩
  simp only [List.get_eq_getElem, List.getElem_zipIdx, Nat.zero_add] at done
  cases same.symm.trans done
  exact stands

end Network.WellFormed

end JourneyTimes
