import JourneyTimes.Proofs.Graph.Components
import JourneyTimes.Proofs.Network.WellFormed

/-!
# Clean networks are largest components

Cleaning a network keeps the nodes of a component that no other one is larger than, and the
links between them, all in their order.  A way from one of these nodes to another leads
through such nodes only, so each of them still reaches every other, and cleaning again
changes nothing.

How components are found does not matter, as long as they are.
-/

namespace JourneyTimes.Network

open Components (FindsComponents)

variable {α : Type}

/-- A link leads from the node with an id to the node with another one. -/
def Joins (network : Network α) (origin destination : String) : Prop :=
  ∃ link ∈ network.links, link.origin = origin ∧ link.destination = destination

/-- Links lead from one node to another, one after the other. -/
def Reaches (network : Network α) : String → String → Prop := Relation.ReflTransGen network.Joins

/-- The ids of nodes that reach each other, and of all of them. -/
structure IsComponent (network : Network α) (members : List String) : Prop where
  nodup : members.Nodup
  inhabited : members ≠ []
  mem_iff : ∀ id ∈ members, ∀ other, other ∈ members ↔
    other ∈ network.nodeIds ∧ network.Reaches id other ∧ network.Reaches other id

/-- A network is left of another one by cleaning it: it has the nodes of a largest component
of the other one and the links between them, in their order and unchanged. -/
structure IsCleaned (network cleaned : Network α) : Prop where
  isComponent : network.IsComponent cleaned.nodeIds
  largest : ∀ members, network.IsComponent members → members.length ≤ cleaned.nodes.size
  nodes_eq : cleaned.nodes.toList =
    network.nodes.toList.filter fun node => cleaned.nodeIds.contains node.id
  links_eq : cleaned.links.toList = network.links.toList.filter fun link =>
    cleaned.nodeIds.contains link.origin && cleaned.nodeIds.contains link.destination

/-! ## Positions and ids -/

namespace WellFormed

variable {network : Network α} (wellFormed : network.WellFormed)

include wellFormed

theorem ends?_eq_some {link : Link α} {origin destination : Nat} :
    network.ends? link = some (origin, destination) ↔
      network.nodeIds[origin]? = some link.origin ∧
        network.nodeIds[destination]? = some link.destination := by
  simp [ends?, Option.bind_eq_some_iff, wellFormed.filed]

/-- Edges between positions are links between the nodes there. -/
theorem relation_consistent : network.relation.Consistent ∧
    network.relation.size = network.nodeIds.length ∧
    ∀ origin destination, network.relation.Leads origin destination ↔
      ∃ link ∈ network.links, network.nodeIds[origin]? = some link.origin ∧
        network.nodeIds[destination]? = some link.destination := by
  have mem_edges (origin destination : Nat) :
      (origin, destination) ∈ network.links.toList.filterMap network.ends? ↔
        ∃ link ∈ network.links, network.nodeIds[origin]? = some link.origin ∧
          network.nodeIds[destination]? = some link.destination := by
    simp only [List.mem_filterMap, wellFormed.ends?_eq_some, Array.mem_toList_iff]
  have size : network.nodes.size = network.nodeIds.length := by simp [nodeIds]
  have inside : ∀ edge ∈ network.links.toList.filterMap network.ends?,
      edge.1 < network.nodes.size ∧ edge.2 < network.nodes.size := by
    rintro ⟨origin, destination⟩ member
    rcases (mem_edges origin destination).mp member with ⟨link, -, first, last⟩
    rw [size]
    exact ⟨(List.getElem?_eq_some_iff.mp first).1, (List.getElem?_eq_some_iff.mp last).1⟩
  rcases Components.Relation.ofEdges_consistent inside with ⟨consistent, sized, leads⟩
  exact ⟨consistent, sized.trans size, fun origin destination =>
    (leads origin destination).trans (mem_edges origin destination)⟩

/-- Positions reach each other as the nodes there do. -/
theorem relation_reaches_iff {origin destination : Nat} {first last : String}
    (firstFound : network.nodeIds[origin]? = some first)
    (lastFound : network.nodeIds[destination]? = some last) :
    network.relation.Reaches origin destination ↔ network.Reaches first last := by
  rcases wellFormed.relation_consistent with ⟨-, -, leads_iff⟩
  constructor
  · intro reaches
    induction reaches generalizing last with
    | refl =>
        cases firstFound.symm.trans lastFound
        exact .refl
    | tail _ leads ih =>
        rcases (leads_iff _ _).mp leads with ⟨link, member, originFound, destinationFound⟩
        cases destinationFound.symm.trans lastFound
        exact (ih originFound).tail ⟨link, member, rfl, rfl⟩
  · intro reaches
    induction reaches generalizing destination with
    | refl =>
        obtain rfl : origin = destination :=
          (List.getElem?_inj (List.getElem?_eq_some_iff.mp firstFound).1
            wellFormed.nodup_nodeIds).mp (firstFound.trans lastFound.symm)
        exact .refl
    | tail _ joins ih =>
        rcases joins with ⟨link, member, rfl, rfl⟩
        rcases List.mem_iff_getElem?.mp (wellFormed.ends_known link member).1 with
          ⟨position, originFound⟩
        exact (ih originFound).tail ((leads_iff _ _).mpr ⟨link, member, originFound, lastFound⟩)

end WellFormed

/-! ## Nodes that are kept -/

/-- The nodes at some positions. -/
def nodesAt (network : Network α) (positions : List Nat) : List (Node α) :=
  network.nodes.toList.zipIdx.filterMap fun (node, position) =>
    if positions.contains position then some node else none

theorem nodesAt_eq (network : Network α) (positions : List Nat) : network.nodesAt positions =
    (network.nodes.toList.zipIdx.filter fun entry => positions.contains entry.2).map Prod.fst := by
  rw [nodesAt, ← List.filterMap_eq_map, List.filterMap_filter]
  rfl

/-- Choosing nodes by their positions is choosing them by something that tells these. -/
theorem nodesAt_eq_filter (network : Network α) {positions : List Nat} {chosen : Node α → Bool}
    (tells : ∀ position node, network.nodes[position]? = some node →
      positions.contains position = chosen node) :
    network.nodesAt positions = network.nodes.toList.filter chosen := by
  have fsts : network.nodes.toList.zipIdx.map Prod.fst = network.nodes.toList := by simp
  calc network.nodesAt positions
      = (network.nodes.toList.zipIdx.filter fun entry => chosen entry.1).map Prod.fst := by
        rw [nodesAt_eq]
        refine congrArg (List.map Prod.fst) (List.filter_congr fun entry member => ?_)
        refine tells entry.2 entry.1 ?_
        rw [← Array.getElem?_toList]
        exact List.mk_mem_zipIdx_iff_getElem?.mp member
    _ = network.nodes.toList.filter chosen := by
        conv_rhs => rw [← fsts, List.filter_map]
        rfl

theorem mem_ids_nodesAt (network : Network α) {positions : List Nat} {id : String} :
    id ∈ (network.nodesAt positions).map (·.id) ↔
      ∃ position ∈ positions, network.nodeIds[position]? = some id := by
  simp only [nodesAt_eq, List.map_map, List.mem_map, List.mem_filter, List.contains_iff_mem,
    Function.comp_apply, getElem?_nodeIds, ← Array.getElem?_toList]
  constructor
  · rintro ⟨⟨node, position⟩, ⟨entry, member⟩, rfl⟩
    exact ⟨position, member, node, List.mk_mem_zipIdx_iff_getElem?.mp entry, rfl⟩
  · rintro ⟨position, member, node, found, rfl⟩
    exact ⟨(node, position), ⟨List.mk_mem_zipIdx_iff_getElem?.mpr found, member⟩, rfl⟩

section Restrict

variable {network : Network α} (positions : List Nat)

theorem links_restrict (network : Network α) : (network.restrict positions).links.toList =
    network.links.toList.filter fun link =>
      (network.restrict positions).nodeIds.contains link.origin &&
        (network.restrict positions).nodeIds.contains link.destination := by
  have filed (id : String) : (ofParts (network.nodesAt positions) []).positions.contains id =
      (network.restrict positions).nodeIds.contains id := by
    rw [Bool.eq_iff_iff, List.contains_iff_mem]
    exact (WellFormed.restrict network positions).mem_positions
  exact List.filter_congr fun link _ => congrArg₂ and (filed link.origin) (filed link.destination)

variable (wellFormed : network.WellFormed)

include wellFormed

theorem nodes_restrict : (network.restrict positions).nodes.toList = network.nodesAt positions := by
  have kept : (network.nodesAt positions).Sublist network.nodes.toList := by
    have whole : network.nodes.toList.zipIdx.map Prod.fst = network.nodes.toList := by simp
    rw [nodesAt_eq]
    conv_rhs => rw [← whole]
    exact List.filter_sublist.map Prod.fst
  have distinct : ((network.nodesAt positions).map (·.id)).Nodup :=
    wellFormed.nodup_nodeIds.sublist (kept.map (·.id))
  exact nodes_withNodes WellFormed.empty distinct (by simp [nodeIds, empty])

theorem mem_nodeIds_restrict {id : String} : id ∈ (network.restrict positions).nodeIds ↔
    ∃ position ∈ positions, network.nodeIds[position]? = some id := by
  rw [nodeIds, nodes_restrict positions wellFormed, mem_ids_nodesAt]

end Restrict

/-! ## Clean networks -/

section Cleaned

variable {network : Network α} (wellFormed : network.WellFormed)

include wellFormed

/-- The nodes that are kept reach each other along the links that are kept. -/
theorem IsCleaned.reaches {cleaned : Network α} (isCleaned : network.IsCleaned cleaned)
    {origin destination : String} (originKept : origin ∈ cleaned.nodeIds)
    (destinationKept : destination ∈ cleaned.nodeIds) : cleaned.Reaches origin destination := by
  have members := isCleaned.isComponent.mem_iff
  rcases (members origin originKept destination).mp destinationKept with ⟨-, reaches, -⟩
  induction reaches using Relation.ReflTransGen.head_induction_on with
  | refl => exact .refl
  | @head before next joins onwards ih =>
      rcases joins with ⟨link, member, rfl, rfl⟩
      -- The next node is kept too, because it comes between two nodes that are together.
      have back := ((members link.origin originKept destination).mp destinationKept).2.2
      have kept : link.destination ∈ cleaned.nodeIds :=
        (members link.origin originKept link.destination).mpr
          ⟨(wellFormed.ends_known link member).2, .single ⟨link, member, rfl, rfl⟩,
            onwards.trans back⟩
      refine (ih kept).head ⟨link, ?_, rfl, rfl⟩
      rw [← Array.mem_toList_iff, isCleaned.links_eq, List.mem_filter]
      exact ⟨Array.mem_toList_iff.mpr member, by simp [originKept, kept]⟩

variable {components : List (List Nat)} (areComponents : network.relation.AreComponents components)

include areComponents

/-- The nodes at the positions of a component are a component. -/
theorem isComponent_restrict {members : List Nat} (member : members ∈ components) :
    network.IsComponent (network.restrict members).nodeIds := by
  rcases wellFormed.relation_consistent with ⟨consistent, sized, -⟩
  constructor
  case nodup => exact (WellFormed.restrict network members).nodup_nodeIds
  case inhabited =>
    rcases List.exists_mem_of_ne_nil _ (areComponents.inhabited members member) with
      ⟨position, inside⟩
    have bound := (areComponents.covers position).mp (List.mem_flatten_of_mem member inside)
    rw [sized] at bound
    exact List.ne_nil_of_mem ((mem_nodeIds_restrict members wellFormed).mpr
      ⟨position, inside, List.getElem?_eq_getElem bound⟩)
  case mem_iff =>
    intro id kept other
    rcases (mem_nodeIds_restrict members wellFormed).mp kept with ⟨position, inside, found⟩
    have together {place : Nat} (otherFound : network.nodeIds[place]? = some other) :
        place ∈ members ↔ network.Reaches id other ∧ network.Reaches other id := by
      rw [areComponents.mem_iff members member position inside, Components.Relation.Together,
        wellFormed.relation_reaches_iff found otherFound,
        wellFormed.relation_reaches_iff otherFound found]
    rw [mem_nodeIds_restrict members wellFormed]
    constructor
    · rintro ⟨place, within, otherFound⟩
      exact ⟨List.mem_of_getElem? otherFound, (together otherFound).mp within⟩
    · rintro ⟨known, reaches⟩
      rcases List.mem_iff_getElem?.mp known with ⟨place, otherFound⟩
      exact ⟨place, (together otherFound).mpr reaches, otherFound⟩

/-- Every component of the network has its positions among the components. -/
theorem exists_positions {ids : List String} (isComponent : network.IsComponent ids) :
    ∃ members ∈ components, ids.length ≤ members.length := by
  rcases List.exists_mem_of_ne_nil _ isComponent.inhabited with ⟨id, idMember⟩
  have known := ((isComponent.mem_iff id idMember id).mp idMember).1
  rcases List.mem_iff_getElem?.mp known with ⟨position, found⟩
  have inside : position < network.relation.size := by
    rw [wellFormed.relation_consistent.2.1]
    exact (List.getElem?_eq_some_iff.mp found).1
  rcases List.mem_flatten.mp ((areComponents.covers position).mpr inside) with
    ⟨members, member, within⟩
  refine ⟨members, member, ?_⟩
  have sub : ids ⊆ members.filterMap (network.nodeIds[·]?) := by
    intro other otherMember
    rcases (isComponent.mem_iff id idMember other).mp otherMember with ⟨otherKnown, there, back⟩
    rcases List.mem_iff_getElem?.mp otherKnown with ⟨place, otherFound⟩
    refine List.mem_filterMap.mpr ⟨place, ?_, otherFound⟩
    exact (areComponents.mem_iff members member position within place).mpr
      ⟨(wellFormed.relation_reaches_iff found otherFound).mpr there,
        (wellFormed.relation_reaches_iff otherFound found).mpr back⟩
  exact (isComponent.nodup.subperm sub).length_le.trans (List.length_filterMap_le ..)

omit areComponents in
/-- As many nodes are kept as there are positions. -/
theorem length_le_restrict {members : List Nat} (nodup : members.Nodup)
    (inside : ∀ position ∈ members, position < network.nodeIds.length) :
    members.length ≤ (network.restrict members).nodes.size := by
  have sub : members ⊆ (network.restrict members).nodeIds.map (network.nodeIds.idxOf ·) := by
    intro position member
    have found := List.getElem?_eq_getElem (inside position member)
    refine List.mem_map.mpr ⟨_, (mem_nodeIds_restrict members wellFormed).mpr
      ⟨position, member, found⟩, ?_⟩
    exact wellFormed.nodup_nodeIds.idxOf_getElem position (inside position member)
  simpa [nodeIds] using (nodup.subperm sub).length_le

/-- The part on a largest component is left by cleaning. -/
theorem isCleaned_restrict {members : List Nat} (member : members ∈ components)
    (largest : ∀ others ∈ components, others.length ≤ members.length) :
    network.IsCleaned (network.restrict members) := by
  constructor
  case isComponent => exact isComponent_restrict wellFormed areComponents member
  case largest =>
    intro ids others
    rcases exists_positions wellFormed areComponents others with ⟨positions, known, fewer⟩
    refine (fewer.trans (largest positions known)).trans (length_le_restrict wellFormed ?_ ?_)
    · exact (List.nodup_flatten.mp areComponents.once).1 members member
    · intro position inside
      rw [← wellFormed.relation_consistent.2.1]
      exact (areComponents.covers position).mp (List.mem_flatten_of_mem member inside)
  case nodes_eq =>
    rw [nodes_restrict members wellFormed]
    refine nodesAt_eq_filter network fun position node found => ?_
    have named : network.nodeIds[position]? = some node.id :=
      getElem?_nodeIds.mpr ⟨node, found, rfl⟩
    rw [Bool.eq_iff_iff, List.contains_iff_mem, List.contains_iff_mem,
      mem_nodeIds_restrict members wellFormed]
    constructor
    · exact fun inside => ⟨position, inside, named⟩
    · rintro ⟨place, inside, sameName⟩
      have same : position = place :=
        (List.getElem?_inj (List.getElem?_eq_some_iff.mp named).1 wellFormed.nodup_nodeIds).mp
          (named.trans sameName.symm)
      exact same ▸ inside
  case links_eq => exact links_restrict members network

end Cleaned

section Find

variable {find : Components.Relation → List (List Nat)} (finds : FindsComponents find)
  {network : Network α} (wellFormed : network.WellFormed) (inhabited : 0 < network.nodes.size)

include finds wellFormed inhabited

/-- There is a largest component, if there are nodes. -/
theorem exists_largest_component : ∃ members ∈ find network.relation,
    network.cleanBy find = network.restrict members ∧
      ∀ others ∈ find network.relation, others.length ≤ members.length := by
  rcases wellFormed.relation_consistent with ⟨consistent, sized, -⟩
  have first : 0 ∈ (find network.relation).flatten := by
    rw [(finds network.relation consistent).covers, sized]
    simpa [nodeIds] using inhabited
  rcases List.mem_flatten.mp first with ⟨some, isSome, -⟩
  rcases Components.exists_largest (List.ne_nil_of_mem isSome) with ⟨members, member, same, largest⟩
  exact ⟨members, member, by rw [cleanBy, same], largest⟩

/-- Cleaning leaves a largest component. -/
theorem cleanBy_isCleaned : network.IsCleaned (network.cleanBy find) := by
  rcases exists_largest_component finds wellFormed inhabited with ⟨members, member, same, largest⟩
  rw [same]
  exact isCleaned_restrict wellFormed (finds _ wellFormed.relation_consistent.1) member largest

/-- A network whose nodes are filed as they come, and reach each other, is clean already. -/
theorem cleanBy_eq_self (filed : network.positions = (ofParts network.nodes.toList []).positions)
    (connected : ∀ origin ∈ network.nodeIds, ∀ destination ∈ network.nodeIds,
      network.Reaches origin destination) : network.cleanBy find = network := by
  rcases wellFormed.relation_consistent with ⟨consistent, sized, -⟩
  rcases exists_largest_component finds wellFormed inhabited with ⟨members, member, same, -⟩
  have areComponents := finds network.relation consistent
  rcases List.exists_mem_of_ne_nil _ (areComponents.inhabited members member) with
    ⟨position, inside⟩
  have bound := (areComponents.covers position).mp (List.mem_flatten_of_mem member inside)
  rw [sized] at bound
  have every : ∀ place node, network.nodes[place]? = some node →
      members.contains place = true := by
    intro place node found
    have here := List.getElem?_eq_getElem bound
    have there : network.nodeIds[place]? = some node.id := getElem?_nodeIds.mpr ⟨node, found, rfl⟩
    rw [List.contains_iff_mem, areComponents.mem_iff members member position inside,
      Components.Relation.Together, wellFormed.relation_reaches_iff here there,
      wellFormed.relation_reaches_iff there here]
    exact ⟨connected _ (List.mem_of_getElem? here) _ (List.mem_of_getElem? there),
      connected _ (List.mem_of_getElem? there) _ (List.mem_of_getElem? here)⟩
  have all : network.nodesAt members = network.nodes.toList :=
    (nodesAt_eq_filter network every).trans (List.filter_true _)
  have nodes : (network.restrict members).nodes = network.nodes :=
    Array.toList_inj.mp ((nodes_restrict members wellFormed).trans all)
  have links : (network.restrict members).links = network.links := by
    rw [← Array.toList_inj, links_restrict, List.filter_eq_self]
    intro link linkMember
    have ends := wellFormed.ends_known link (Array.mem_toList_iff.mp linkMember)
    rw [nodeIds, nodes]
    exact Bool.and_eq_true_iff.mpr
      ⟨List.contains_iff_mem.mpr ends.1, List.contains_iff_mem.mpr ends.2⟩
  have positions : (network.restrict members).positions = network.positions := by
    rw [filed, ← all]
    rfl
  calc network.cleanBy find
      = ⟨(network.restrict members).nodes, (network.restrict members).links,
          (network.restrict members).positions⟩ := same
    _ = network := by rw [nodes, links, positions]

/-- Cleaning a clean network changes nothing. -/
theorem cleanBy_cleanBy : (network.cleanBy find).cleanBy find = network.cleanBy find := by
  have isCleaned := cleanBy_isCleaned finds wellFormed inhabited
  rcases exists_largest_component finds wellFormed inhabited with ⟨members, -, same, -⟩
  refine cleanBy_eq_self finds (.cleanBy find network) ?_ ?_ ?_
  · have some := List.length_pos_iff.mpr isCleaned.isComponent.inhabited
    simpa [nodeIds] using some
  · rw [same, nodes_restrict members wellFormed]
    rfl
  · exact fun origin originKept destination => isCleaned.reaches wellFormed originKept

end Find

end JourneyTimes.Network
