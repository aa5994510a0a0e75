import JourneyTimes.Proofs.Cost.Overtaking
import JourneyTimes.Proofs.Timetable.Links
import Mathlib.Data.Fintype.EquivFin
import Mathlib.Data.Fintype.List
import Std.Data.String.ToNat

/-!
# The nodes of a transit network

The id of a node is made of the line, the route and the position of its stop, with slashes
in between.  A number has no slash, so nodes of one route have different ids; but lines and
routes may have slashes, and two routes may even have the same line and id.  Nodes of
different routes that have the same id become one node.

A transit network has a node for every stop exactly if the routes that have stops have
different names, where the name of a route is its line, a slash and its id.  Then no link is
a loop, and links are as long as their ends are apart.
-/

namespace JourneyTimes.Timetable

variable {α : Type} [Scalar α]

/-! ## Ids of nodes -/

/-- What the ids of the nodes of a route begin with. -/
def Route.name (route : Route α) : String := route.line ++ "/" ++ route.id

theorem slash_notMem_toString (number : Nat) : '/' ∉ (toString number).toList := by
  intro member
  rw [Nat.toString_eq_repr, Nat.toList_repr] at member
  exact absurd (Nat.isDigit_of_mem_toDigits (by decide) (by decide) member) (by decide)

/-- Words are told apart by what stands before the last slash and after it. -/
theorem append_slash_inj {left right first second : List Char} (firstPlain : '/' ∉ first)
    (secondPlain : '/' ∉ second) (same : left ++ '/' :: first = right ++ '/' :: second) :
    left = right ∧ first = second := by
  rcases List.append_eq_append_iff.mp same with ⟨middle, rfl, rest⟩ | ⟨middle, rfl, rest⟩
  · cases middle with
    | nil =>
        cases rest
        exact ⟨(List.append_nil _).symm, rfl⟩
    | cons letter middle =>
        cases rest
        simp at firstPlain
  · cases middle with
    | nil =>
        cases rest
        exact ⟨List.append_nil _, rfl⟩
    | cons letter middle =>
        cases rest
        simp at secondPlain

omit [Scalar α] in
/-- A node id tells the name of the route and the position of the stop on it. -/
theorem haltId_inj {left right : Route α} {first second : Nat} :
    haltId left first = haltId right second ↔ left.name = right.name ∧ first = second := by
  constructor
  · intro same
    have letters := congrArg String.toList same
    have parts (route : Route α) (stop : Nat) : (haltId route stop).toList =
        route.name.toList ++ '/' :: (toString stop).toList := by
      simp [haltId, Route.name]
    rw [parts, parts] at letters
    rcases append_slash_inj (slash_notMem_toString first) (slash_notMem_toString second) letters
      with ⟨names, stops⟩
    exact ⟨String.toList_inj.mp names, Nat.repr_injective (String.toList_inj.mp stops)⟩
  · rintro ⟨names, rfl⟩
    change left.name ++ "/" ++ toString first = right.name ++ "/" ++ toString first
    rw [names]

/-- The routes that have stops have different names. -/
def HasDistinctNames (timetable : Timetable α) : Prop :=
  ∀ (first second : Nat) (left right : Route α), timetable.routes[first]? = some left →
    timetable.routes[second]? = some right → left.stops ≠ [] → right.stops ≠ [] →
      left.name = right.name → first = second

omit [Scalar α] in
/-- Ids of nodes are different exactly if names of routes are. -/
theorem nodup_nodeIds_iff (timetable : Timetable α) :
    (timetable.stopPositions.map timetable.nodeIdAt).Nodup ↔ timetable.HasDistinctNames := by
  rw [List.nodup_map_iff_inj_on timetable.nodup_stopPositions]
  constructor
  · intro distinct first second left right leftFound rightFound leftStops rightStops names
    have begins (position : Nat) (route : Route α)
        (found : timetable.routes[position]? = some route) (stops : route.stops ≠ []) :
        (position, 0) ∈ timetable.stopPositions :=
      mem_stopPositions.mpr (hasStop_iff.mpr ⟨route, found, List.length_pos_iff.mpr stops⟩)
    have same : timetable.nodeIdAt (first, 0) = timetable.nodeIdAt (second, 0) := by
      rw [nodeIdAt, nodeIdAt, leftFound, rightFound]
      exact haltId_inj.mpr ⟨names, rfl⟩
    exact congrArg Prod.fst (distinct _ (begins first left leftFound leftStops) _
      (begins second right rightFound rightStops) same)
  · rintro names ⟨first, stop⟩ firstMember ⟨second, other⟩ secondMember same
    rcases hasStop_iff.mp (mem_stopPositions.mp firstMember) with ⟨left, leftFound, leftInside⟩
    rcases hasStop_iff.mp (mem_stopPositions.mp secondMember) with
      ⟨right, rightFound, rightInside⟩
    rw [nodeIdAt, nodeIdAt, leftFound, rightFound] at same
    rcases haltId_inj.mp same with ⟨sameName, sameStop⟩
    have sameRoute := names first second left right leftFound rightFound
      (List.ne_nil_of_length_pos (Nat.zero_lt_of_lt leftInside))
      (List.ne_nil_of_length_pos (Nat.zero_lt_of_lt rightInside)) sameName
    exact Prod.ext sameRoute sameStop

/-! ## Nodes of the network -/

/-- A network in which there is a node for every stop and no other one, each at the place of
its facility. -/
def HasNodePerStop (timetable : Timetable α) (network : Network α) : Prop :=
  ∃ node : {position // position ∈ timetable.stopPositions} ≃ Fin network.nodes.size,
    ∀ position, timetable.placeAt? position.1 = some network.nodes[node position].place

/-- What is added to the network for a stop. -/
def Halt.node (halt : Halt α) : Network.Node α := ⟨halt.id, halt.place⟩

/-- The nodes of a transit network are those that are added for the stops. -/
theorem toNetwork_nodes {timetable : Timetable α} {settings : RouterSettings α}
    {network : Network α} (made : timetable.toNetwork settings = .ok network) :
    ∃ stops, List.Forall₂ (Halt.IsAt timetable) timetable.stopPositions stops ∧
      network.nodes = ((Network.empty : Network α).withNodes (stops.map Halt.node)).nodes ∧
      network.positions =
        ((Network.empty : Network α).withNodes (stops.map Halt.node)).positions := by
  rcases bind_eq_ok.mp made with ⟨byRoute, halted, made⟩
  rcases bind_eq_ok.mp made with ⟨walks, -, made⟩
  refine ⟨byRoute.flatten, forall₂_halts halted, ?_⟩
  rw [Network.withNodes, List.foldl_map]
  exact Network.nodes_foldlM_addLink made

omit [Scalar α] in
/-- The ids that are given to stops are those at their positions. -/
theorem ids_eq {timetable : Timetable α} {stops : List (Halt α)}
    (each : List.Forall₂ (Halt.IsAt timetable) timetable.stopPositions stops) :
    (stops.map Halt.node).map (·.id) = timetable.stopPositions.map timetable.nodeIdAt := by
  rw [List.map_map, ← List.forall₂_eq_eq_eq, List.forall₂_map_left_iff,
    List.forall₂_map_right_iff]
  exact (each.imp fun _ _ standsAt => standsAt.id_eq).flip

section

variable {timetable : Timetable α} {settings : RouterSettings α} {network : Network α}
  (made : timetable.toNetwork settings = .ok network)

include made

/-- Where there are as many nodes as stops, no two stops have the same id. -/
theorem distinct_of_hasNodePerStop (onePerStop : timetable.HasNodePerStop network) :
    timetable.HasDistinctNames := by
  rcases toNetwork_nodes made with ⟨stops, each, nodesEq, -⟩
  rcases onePerStop with ⟨node, -⟩
  rw [← nodup_nodeIds_iff, ← ids_eq each]
  have count : timetable.stopPositions.length = network.nodes.size :=
    Fin.equiv_iff_eq.mp
      ⟨(List.Nodup.getEquiv _ timetable.nodup_stopPositions).trans node⟩
  have bare := Network.WellFormed.empty.withNodes (stops.map Halt.node)
  -- as many different ids as there are stops are on the list
  have known := bare.nodup_nodeIds.subperm (fun id member =>
    ((Network.mem_nodeIds_withNodes Network.WellFormed.empty _).mp member).resolve_left
      List.not_mem_nil)
  have perm := known.perm_of_length_le (by
    rw [List.length_map, List.length_map, ← each.length_eq, count, nodesEq]
    simp [Network.nodeIds])
  exact perm.nodup_iff.mp bare.nodup_nodeIds

/-- Where stops have different ids, their nodes are listed in their order. -/
theorem hasNodePerStop_of_distinct (distinct : timetable.HasDistinctNames) :
    timetable.HasNodePerStop network := by
  rcases toNetwork_nodes made with ⟨stops, each, nodesEq, -⟩
  rw [← nodup_nodeIds_iff, ← ids_eq each] at distinct
  have inOrder := Network.nodes_withNodes Network.WellFormed.empty distinct
    (fun _ _ => List.not_mem_nil)
  rw [← nodesEq] at inOrder
  have count : timetable.stopPositions.length = network.nodes.size := by
    rw [← Array.length_toList, inOrder, each.length_eq]
    simp [Network.empty]
  let numbering := List.Nodup.getEquiv timetable.stopPositions timetable.nodup_stopPositions
  refine ⟨numbering.symm.trans (finCongr count), fun position => ?_⟩
  rcases numbering.surjective position with ⟨index, rfl⟩
  have inside : index.val < stops.length := each.length_eq ▸ index.isLt
  have found : network.nodes[index.val]? = some stops[index.val].node := by
    rw [← Array.getElem?_toList, inOrder]
    simp [Network.empty, inside]
  have standsAt := each.get index.isLt inside
  have number : ((numbering.symm.trans (finCongr count)) (numbering index)).val = index.val := by
    simp
  simp only [Fin.getElem_fin, number]
  rw [Option.some.inj ((Array.getElem?_eq_getElem _).symm.trans found)]
  exact standsAt.place_eq

/-- There is a node for every stop exactly if the routes that have stops have different
names. -/
theorem hasNodePerStop_iff : timetable.HasNodePerStop network ↔ timetable.HasDistinctNames :=
  ⟨distinct_of_hasNodePerStop made, hasNodePerStop_of_distinct made⟩

end

/-- Where nodes of different routes have different ids, the node of a stop is at the place of
its facility. -/
theorem node?_nodeIdAt {timetable : Timetable α} {settings : RouterSettings α}
    {network : Network α} (made : timetable.toNetwork settings = .ok network)
    (distinct : timetable.HasDistinctNames) {position : Nat × Nat}
    (isStop : position ∈ timetable.stopPositions) {place : Point α}
    (placed : timetable.placeAt? position = some place) :
    network.node? (timetable.nodeIdAt position) = some ⟨timetable.nodeIdAt position, place⟩ := by
  rcases toNetwork_nodes made with ⟨stops, each, nodesEq, positionsEq⟩
  rw [← nodup_nodeIds_iff, ← ids_eq each] at distinct
  have turned : List.Forall₂ (fun halt position => Halt.IsAt timetable position halt) stops
      timetable.stopPositions := each.flip
  rcases exists_of_forall₂ turned isStop with ⟨halt, member, standsAt⟩
  have found := Network.node?_withNodes Network.WellFormed.empty distinct
    (List.mem_map_of_mem member)
  rw [Network.node?, ← nodesEq, ← positionsEq] at found
  obtain rfl : halt.place = place := Option.some.inj (standsAt.place_eq.symm.trans placed)
  rw [← standsAt.id_eq]
  exact found

/-- A transit network has one node for every stop, at the place of its facility, exactly if
the routes that have stops have different names.  Then no link is a loop, and every link is
as long as its ends are apart. -/
theorem toNetwork_hasNodePerStop {timetable : Timetable α} {settings : RouterSettings α}
    {network : Network α} (made : timetable.toNetwork settings = .ok network) :
    (timetable.HasNodePerStop network ↔ timetable.HasDistinctNames) ∧
      (timetable.HasDistinctNames → ∀ link ∈ network.links,
        link.origin ≠ link.destination ∧
          ∃ origin destination, network.node? link.origin = some origin ∧
            network.node? link.destination = some destination ∧
            link.length = origin.place.distance destination.place) := by
  refine ⟨hasNodePerStop_iff made, fun distinct link member => ?_⟩
  rcases toNetwork_joins made member with
    ⟨origin, originStop, destination, destinationStop, apart, joins⟩
  rcases joins.length_eq with ⟨first, last, originPlace, destinationPlace, length⟩
  rw [joins.origin_eq, joins.destination_eq]
  refine ⟨fun same => apart ?_, _, _, node?_nodeIdAt made distinct originStop originPlace,
    node?_nodeIdAt made distinct destinationStop destinationPlace, length⟩
  have different := (nodup_nodeIds_iff timetable).mpr distinct
  exact List.inj_on_of_nodup_map different originStop destinationStop same

/-- The two lines of the connection have a node for each of their stops. -/
theorem toNetwork_hasNodePerStop_connection : ∃ network,
    connection.toNetwork .reluctant = .ok network ∧ connection.HasNodePerStop network ∧
      ∀ link ∈ network.links, link.origin ≠ link.destination ∧
        ∃ origin destination, network.node? link.origin = some origin ∧
          network.node? link.destination = some destination ∧
          link.length = origin.place.distance destination.place := by
  rcases toNetwork_connection with ⟨network, networked, -⟩
  have distinct : connection.HasDistinctNames :=
    (nodup_nodeIds_iff connection).mp (by decide +kernel)
  rcases toNetwork_hasNodePerStop networked with ⟨onePerStop, apart⟩
  exact ⟨network, networked, onePerStop.mpr distinct, apart distinct⟩

/-! ## Two lines with the same nodes -/

/-- A route that goes east by way of a facility. -/
def eastward (line id facility : String) : Route (Exact ℚ) where
  line := line
  id := id
  mode := "bus"
  stops := [⟨"west", .departureOnly (0 : ℚ)⟩, ⟨facility, .both (600 : ℚ) (600 : ℚ)⟩,
    ⟨"east", .arrivalOnly (1200 : ℚ)⟩]
  departures := [⟨"d", (0 : ℚ), none⟩]

/-- The facilities that the two lines serve. -/
def eastwardFacilities : Timetable (Exact ℚ) :=
  [.at "west" (-1000) 0, .at "north" 0 30, .at "south" 0 0, .at "east" 1000 0].foldl
    addFacility empty

/-- The slash in the name of line `a/b` is the one that comes after the name of line `a`. -/
def slashed : Timetable (Exact ℚ) :=
  { eastwardFacilities with
    routes := #[eastward "a/b" "c" "north", eastward "a" "b/c" "south"] }

theorem addRoute_slashed :
    (eastwardFacilities.addRoute (eastward "a/b" "c" "north") >>= fun timetable =>
      timetable.addRoute (eastward "a" "b/c" "south")) = .ok slashed := by
  simp [addRoute, unknownFacility?, addFacility, addRouteUnchecked, empty, eastward, Facility.at,
    eastwardFacilities, slashed, ok_bind]

/-- The stops of the two lines. -/
def slashedHalts : List (List (Halt (Exact ℚ))) :=
  [[⟨"a/b/c/0", ⟨(-1000 : ℚ), (0 : ℚ)⟩, 0, 0, "bus", false, true⟩,
    ⟨"a/b/c/1", ⟨(0 : ℚ), (30 : ℚ)⟩, 0, 1, "bus", true, true⟩,
    ⟨"a/b/c/2", ⟨(1000 : ℚ), (0 : ℚ)⟩, 0, 2, "bus", true, false⟩],
   [⟨"a/b/c/0", ⟨(-1000 : ℚ), (0 : ℚ)⟩, 1, 0, "bus", false, true⟩,
    ⟨"a/b/c/1", ⟨(0 : ℚ), (0 : ℚ)⟩, 1, 1, "bus", true, true⟩,
    ⟨"a/b/c/2", ⟨(1000 : ℚ), (0 : ℚ)⟩, 1, 2, "bus", true, false⟩]]

theorem halts_slashed : halts slashed = .ok slashedHalts := by
  simp [halts, slashed, eastward, eastwardFacilities, addFacility, empty, haltsOfRoute, haltOf,
    placeOf, Std.HashMap.getElem?_insert, List.zipIdx, haltId, Facility.at, slashedHalts]
  decide +kernel

/-- Walking from the northern facility to the southern one or back. -/
def slashedWalk : Network.Link (Exact ℚ) :=
  ⟨"a/b/c/1>a/b/c/1", "a/b/c/1", "a/b/c/1", (30 : ℚ), (1 : ℚ), (1000 : ℚ), (1 : ℚ), ["walk"],
    none⟩

theorem transfers_slashed :
    transfers .reluctant slashedHalts.flatten = .ok [slashedWalk, slashedWalk] := by
  decide +kernel

theorem toNetwork_slashed : ∃ network,
    slashed.toNetwork .reluctant = .ok network ∧ network.nodes.size = 3 ∧
      slashedWalk ∈ network.links := by
  rw [toNetwork, halts_slashed, ok_bind]
  dsimp only
  rw [transfers_slashed, ok_bind]
  simp only [slashedHalts, List.flatten, List.append, List.foldl, List.flatMap, List.map, rides,
    ride, linkId]
  simp [Network.addNode_of_fresh, Network.addNode_of_filed, Network.addLink_of_known,
    Network.empty, Network.Link.road, slashedWalk]

/-- Routes of two lines have three stops each and three nodes together, although every route
and every facility is known.  There is a walk of 30 m from a node to itself. -/
theorem slashed_not_hasNodePerStop :
    (eastwardFacilities.addRoute (eastward "a/b" "c" "north") >>= fun timetable =>
      timetable.addRoute (eastward "a" "b/c" "south")) = .ok slashed ∧
    ∃ network, slashed.toNetwork .reluctant = .ok network ∧
      slashed.stopPositions.length = 6 ∧ network.nodes.size = 3 ∧
      ¬ slashed.HasNodePerStop network ∧
      ∃ link ∈ network.links, link.origin = link.destination ∧
        link.length = ((30 : ℚ) : Exact ℚ) := by
  rcases toNetwork_slashed with ⟨network, networked, size, walk⟩
  refine ⟨addRoute_slashed, network, networked, rfl, size, ?_, slashedWalk, walk, rfl, rfl⟩
  rw [hasNodePerStop_iff networked, ← nodup_nodeIds_iff]
  decide +kernel

end JourneyTimes.Timetable
