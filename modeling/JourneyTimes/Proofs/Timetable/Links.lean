import JourneyTimes.Proofs.Timetable.Network
import JourneyTimes.Proofs.Timetable.Stops
import Mathlib.Data.List.Sort

/-!
# Rides and transfers, and no other links

The links of a transit network are read off the timetable: a ride from every stop to the
next one of its route, and then a transfer from every stop where people get off to every
stop of another route where they get on, if the two are within the radius.  Each of them
is there once, in the order of the stops.

The stops near a place may be found in any order, by whatever search finds just those
within the radius.  They are sorted afterwards, so the network is the same.
-/

namespace JourneyTimes.Timetable

variable {α : Type} [Scalar α]

/-! ## The links that there should be -/

/-- A link from the node of one stop to that of another, as long as they are apart. -/
structure Joins (timetable : Timetable α) (origin destination : Nat × Nat)
    (link : Network.Link α) : Prop where
  origin_eq : link.origin = timetable.nodeIdAt origin
  destination_eq : link.destination = timetable.nodeIdAt destination
  length_eq : ∃ first last, timetable.placeAt? origin = some first ∧
    timetable.placeAt? destination = some last ∧ link.length = first.distance last

/-- The ride from a stop to the next one of its route. -/
structure IsRide (timetable : Timetable α) (position : Nat × Nat) (link : Network.Link α) :
    Prop extends Joins timetable position (position.1, position.2 + 1) link where
  stretch_eq : link.stretch = some ⟨position.1, position.2, position.2 + 1⟩
  modes_eq : (timetable.routes[position.1]?).map (fun route => [route.mode]) = some link.modes

/-- The transfer from one stop to another. -/
structure IsTransfer (timetable : Timetable α) (settings : RouterSettings α)
    (pair : (Nat × Nat) × (Nat × Nat)) (link : Network.Link α) :
    Prop extends Joins timetable pair.1 pair.2 link where
  stretch_eq : link.stretch = none
  modes_eq : link.modes = [transferMode]
  freeSpeed_eq : link.freeSpeed = settings.walkSpeed

/-- The stops that another one of the same route follows, route after route. -/
def ridePositions (timetable : Timetable α) : List (Nat × Nat) :=
  timetable.routes.toList.zipIdx.flatMap fun (route, routeIndex) =>
    (List.range (route.stops.length - 1)).map fun stopIndex => (routeIndex, stopIndex)

/-- Whether the facilities of two stops are within the radius for transfers. -/
def areNear (timetable : Timetable α) (settings : RouterSettings α)
    (origin destination : Nat × Nat) : Bool :=
  match timetable.placeAt? origin, timetable.placeAt? destination with
  | some first, some last =>
    first.squaredDistance last ≤ Scalar.square settings.transferRadius
  | _, _ => false

/-- Whether people who got off at a stop walk to another one: it is on another route, it is
not the last one there, and it is near. -/
def receives (timetable : Timetable α) (settings : RouterSettings α)
    (origin destination : Nat × Nat) : Bool :=
  destination.1 != origin.1 && timetable.hasStop (destination.1, destination.2 + 1) &&
    timetable.areNear settings origin destination

/-- The stops that transfers join.  People get off everywhere but at the first stop of a
route. -/
def transferPairs (timetable : Timetable α) (settings : RouterSettings α) :
    List ((Nat × Nat) × (Nat × Nat)) :=
  (timetable.stopPositions.filter fun origin => 0 < origin.2).flatMap fun origin =>
    (timetable.stopPositions.filter (timetable.receives settings origin)).map
      fun destination => (origin, destination)

omit [Scalar α] in
theorem mem_ridePositions {timetable : Timetable α} {position : Nat × Nat} :
    position ∈ timetable.ridePositions ↔
      timetable.hasStop (position.1, position.2 + 1) = true := by
  rcases position with ⟨routeIndex, stopIndex⟩
  simp only [hasStop_iff, ridePositions, List.mem_flatMap, List.mem_map, List.mem_range,
    Prod.exists, List.mk_mem_zipIdx_iff_getElem?, Array.getElem?_toList, Prod.mk.injEq]
  constructor
  · rintro ⟨route, _, found, _, inside, rfl, rfl⟩
    exact ⟨route, found, Nat.add_lt_of_lt_sub inside⟩
  · rintro ⟨route, found, inside⟩
    exact ⟨route, routeIndex, found, stopIndex, Nat.lt_sub_of_add_lt inside, rfl, rfl⟩

/-! ## Rides -/

/-- Nodes that stand for two stops say how far these are apart. -/
theorem joins_of_isAt {timetable : Timetable α} {origin destination : Nat × Nat}
    {first last : Halt α} (originAt : first.IsAt timetable origin)
    (destinationAt : last.IsAt timetable destination) {link : Network.Link α}
    (origin_eq : link.origin = first.id) (destination_eq : link.destination = last.id)
    (length_eq : link.length = first.place.distance last.place) :
    Joins timetable origin destination link where
  origin_eq := origin_eq.trans originAt.id_eq
  destination_eq := destination_eq.trans destinationAt.id_eq
  length_eq := ⟨first.place, last.place, originAt.place_eq, destinationAt.place_eq, length_eq⟩

theorem rides_eq_zipWith (stops : List (Halt α)) :
    rides stops = List.zipWith ride stops stops.tail := by
  induction stops with
  | nil => rfl
  | cons origin stops ih =>
      cases stops with
      | nil => rfl
      | cons destination stops =>
          rw [rides, ih]
          rfl

/-- The rides of a route lead from each stop to the next one. -/
theorem forall₂_rides {timetable : Timetable α} {route : Route α} {routeIndex : Nat}
    {stops : List (Halt α)}
    (each : List.Forall₂ (Halt.IsAt timetable)
      ((List.range route.stops.length).map fun stopIndex => (routeIndex, stopIndex)) stops) :
    List.Forall₂ (IsRide timetable)
      ((List.range (route.stops.length - 1)).map fun stopIndex => (routeIndex, stopIndex))
      (rides stops) := by
  rcases List.forall₂_iff_get.mp each with ⟨lengths, stands⟩
  rw [List.length_map, List.length_range] at lengths
  rw [rides_eq_zipWith]
  refine List.forall₂_iff_get.mpr ⟨by simp [lengths], fun position inside within => ?_⟩
  simp only [List.length_map, List.length_range] at inside
  have here := stands position (by simp; omega) (by omega)
  have next := stands (position + 1) (by simp; omega) (by omega)
  simp only [List.get_eq_getElem, List.getElem_map, List.getElem_range] at here next ⊢
  rw [List.getElem_zipWith, List.getElem_tail]
  exact
    { toJoins := joins_of_isAt here next rfl rfl rfl
      stretch_eq := by rw [ride, here.route_eq, here.stop_eq, next.stop_eq]
      modes_eq := by
        rcases Option.map_eq_some_iff.mp here.mode_eq with ⟨route, found, mode⟩
        rw [found, ride, ← mode]
        rfl }

/-! ## Transfers -/

theorem place_isNear {timetable : Timetable α} {settings : RouterSettings α}
    {origin destination : Nat × Nat} {first last : Halt α}
    (originAt : first.IsAt timetable origin) (destinationAt : last.IsAt timetable destination) :
    timetable.areNear settings origin destination =
      decide (first.place.squaredDistance last.place ≤ Scalar.square settings.transferRadius) := by
  rw [areNear, originAt.place_eq, destinationAt.place_eq]

/-- What a stop offers to those who get off: the stops of other routes that are near, as far
as people get on there. -/
theorem transfersFrom_eq (settings : RouterSettings α) (stops : List (Halt α)) (origin : Halt α) :
    transfersFrom settings ⟨(stops.filter (·.canBoard)).map fun halt => (halt.place, halt)⟩
        origin =
      (do
        Places.check origin.place
        pure ((stops.filter fun destination => destination.route != origin.route &&
          destination.canBoard && decide (origin.place.squaredDistance destination.place ≤
            Scalar.square settings.transferRadius)).map
              (transfer settings.walkSpeed origin))) := by
  rw [transfersFrom, Places.within]
  cases Places.check origin.place with
  | error error => rfl
  | ok checked =>
      rw [ok_bind, ok_bind, pure_bind]
      simp only [List.filter_map, List.map_map, List.filter_filter, Function.comp_def]
      congr 2
      refine List.filter_congr fun destination _ => ?_
      rw [Bool.and_assoc, Bool.and_comm (destination.canBoard)]

/-- The transfers lead from each stop where people get off to those that receive them. -/
theorem forall₂_transfers {timetable : Timetable α} {settings : RouterSettings α}
    {stops : List (Halt α)} {walks : List (Network.Link α)}
    (each : List.Forall₂ (Halt.IsAt timetable) timetable.stopPositions stops)
    (made : transfers settings stops = .ok walks) :
    List.Forall₂ (IsTransfer timetable settings) (timetable.transferPairs settings) walks := by
  rcases bind_eq_ok.mp made with ⟨boarding, collected, made⟩
  rcases bind_eq_ok.mp made with ⟨found, walked, made⟩
  cases made
  obtain rfl : boarding = ⟨(stops.filter (·.canBoard)).map fun halt => (halt.place, halt)⟩ :=
    congrArg Places.mk (Places.ofList_eq_ok collected).1
  have alighting : List.Forall₂ (Halt.IsAt timetable)
      (timetable.stopPositions.filter fun origin => 0 < origin.2)
      (stops.filter (·.canAlight)) := by
    refine List.rel_filter (fun position halt standsAt => ?_) each
    dsimp only
    rw [standsAt.canAlight_eq]
  rw [transferPairs, List.flatMap_def]
  apply List.rel_flatten
  rw [List.forall₂_map_left_iff]
  refine forall₂_comp (fun origin first walks originAt done => ?_) alighting
    (forall₂_of_mapM_eq_ok walked)
  rw [transfersFrom_eq] at done
  rcases bind_eq_ok.mp done with ⟨⟨⟩, -, done⟩
  cases done
  rw [List.forall₂_map_left_iff, List.forall₂_map_right_iff]
  refine (List.rel_filter (fun destination last destinationAt => ?_) each).imp ?_
  · dsimp only
    rw [receives, place_isNear originAt destinationAt, destinationAt.canBoard_eq,
      destinationAt.route_eq, originAt.route_eq]
  · intro destination last destinationAt
    exact
      { toJoins := joins_of_isAt originAt destinationAt rfl rfl rfl
        stretch_eq := rfl
        modes_eq := rfl
        freeSpeed_eq := rfl }

/-- The links of a transit network are the rides and the transfers, in their order, and no
others. -/
theorem toNetwork_legs {timetable : Timetable α} {settings : RouterSettings α}
    {network : Network α} (made : timetable.toNetwork settings = .ok network) :
    ∃ rides walks, network.links.toList = rides ++ walks ∧
      List.Forall₂ (IsRide timetable) timetable.ridePositions rides ∧
      List.Forall₂ (IsTransfer timetable settings) (timetable.transferPairs settings) walks := by
  rcases toNetwork_links made with ⟨byRoute, walks, halted, walked, links⟩
  exact ⟨_, walks, links,
    forall₂_of_halts halted fun _ _ _ found done =>
      forall₂_rides (forall₂_haltsOfRoute found done),
    forall₂_transfers (forall₂_halts halted) walked⟩

/-- Each link of a transit network is a ride or a transfer. -/
theorem isRide_or_isTransfer {timetable : Timetable α} {settings : RouterSettings α}
    {network : Network α} (made : timetable.toNetwork settings = .ok network)
    {link : Network.Link α} (member : link ∈ network.links) :
    (∃ position ∈ timetable.ridePositions, IsRide timetable position link) ∨
      ∃ pair ∈ timetable.transferPairs settings, IsTransfer timetable settings pair link := by
  rcases toNetwork_legs made with ⟨rides, walks, links, ridden, walked⟩
  rw [← Array.mem_toList_iff, links, List.mem_append] at member
  exact member.imp (exists_of_forall₂ ridden) (exists_of_forall₂ walked)

/-- A link of a transit network stands for no stretch, or for that from a stop of the timetable
to the next one. -/
theorem toNetwork_stretch {timetable : Timetable α} {settings : RouterSettings α}
    {network : Network α} (made : timetable.toNetwork settings = .ok network)
    {link : Network.Link α} (member : link ∈ network.links) {stretch : Stretch}
    (stands : link.stretch = some stretch) :
    stretch.toStop = stretch.fromStop + 1 ∧
      timetable.hasStop (stretch.route, stretch.toStop) = true := by
  rcases isRide_or_isTransfer made member with ⟨position, goesOn, ride⟩ | ⟨pair, -, walk⟩
  · cases stands.symm.trans ride.stretch_eq
    exact ⟨rfl, mem_ridePositions.mp goesOn⟩
  · cases stands.symm.trans walk.stretch_eq

/-- A link of a transit network joins two different stops. -/
theorem toNetwork_joins {timetable : Timetable α} {settings : RouterSettings α}
    {network : Network α} (made : timetable.toNetwork settings = .ok network)
    {link : Network.Link α} (member : link ∈ network.links) :
    ∃ origin ∈ timetable.stopPositions, ∃ destination ∈ timetable.stopPositions,
      origin ≠ destination ∧ Joins timetable origin destination link := by
  rcases isRide_or_isTransfer made member with ⟨position, goesOn, ride⟩ | ⟨pair, paired, walk⟩
  · have next := mem_ridePositions.mp goesOn
    refine ⟨position, mem_stopPositions.mpr (hasStop_of_next next), _, mem_stopPositions.mpr next,
      fun same => ?_, ride.toJoins⟩
    exact absurd (congrArg Prod.snd same) (Nat.ne_of_lt (Nat.lt_succ_self _))
  · rcases List.mem_flatMap.mp paired with ⟨origin, alights, paired⟩
    rcases List.mem_map.mp paired with ⟨destination, received, rfl⟩
    rcases List.mem_filter.mp received with ⟨isStop, receives⟩
    refine ⟨origin, List.mem_of_mem_filter alights, destination, isStop, ?_, walk.toJoins⟩
    rintro rfl
    simp [Timetable.receives] at receives

/-- A transit network is well-formed, like every network that nodes and links are added to. -/
theorem toNetwork_wellFormed {timetable : Timetable α} {settings : RouterSettings α}
    {network : Network α} (made : timetable.toNetwork settings = .ok network) :
    network.WellFormed := by
  rcases bind_eq_ok.mp made with ⟨byRoute, -, made⟩
  rcases bind_eq_ok.mp made with ⟨walks, -, made⟩
  refine Network.WellFormed.addLinks ?_ made
  have nodes := Network.WellFormed.empty.withNodes
    (byRoute.flatten.map fun halt : Halt α => (⟨halt.id, halt.place⟩ : Network.Node α))
  rw [Network.withNodes, List.foldl_map] at nodes
  exact nodes

/-! ## Searching around a place -/

/-- A search for points within a distance of a place: given points with numbers, a place and
the square of the distance, it finds numbers. -/
abbrev RadiusSearch (α : Type) := List (Point α × Nat) → Point α → α → List Nat

/-- A search that finds just what is within the distance, in any order. -/
def RadiusSearch.IsExact (search : RadiusSearch α) : Prop :=
  ∀ entries point limit, (search entries point limit).Perm
    ((entries.filter fun entry => point.squaredDistance entry.1 ≤ limit).map (·.2))

/-- The stops where people get on, by their numbers. -/
def boardingEntries (stops : List (Halt α)) : List (Point α × Nat) :=
  (stops.zipIdx.filter fun entry => entry.1.canBoard).map fun entry => (entry.1.place, entry.2)

/-- The transfers that begin at a stop, to the stops of other routes that a search finds, in
the order of their numbers. -/
def transfersFromBy (search : RadiusSearch α) (settings : RouterSettings α)
    (stops : List (Halt α)) (origin : Halt α) : Except Error (List (Network.Link α)) := do
  Places.check origin.place
  let near := search (boardingEntries stops) origin.place (Scalar.square settings.transferRadius)
  let others := near.filter fun index => stops[index]?.any fun halt => halt.route != origin.route
  pure (others.mergeSort.filterMap fun index =>
    stops[index]?.map (transfer settings.walkSpeed origin))

/-- The transfers between some stops, with a search for those that are near. -/
def transfersBy (search : RadiusSearch α) (settings : RouterSettings α)
    (stops : List (Halt α)) : Except Error (List (Network.Link α)) := do
  (boardingEntries stops).forM fun entry => Places.check entry.1
  let found ← (stops.filter (·.canAlight)).mapM (transfersFromBy search settings stops)
  pure found.flatten

/-- The network of a timetable, with a search for the stops that are near. -/
def toNetworkBy (search : RadiusSearch α) (timetable : Timetable α)
    (settings : RouterSettings α) : Except Error (Network α) := do
  let byRoute ← halts timetable
  let stops := byRoute.flatten
  let nodes : Network α :=
    stops.foldl (fun network halt => network.addNode halt.id halt.place) Network.empty
  let walks ← transfersBy search settings stops
  (byRoute.flatMap rides ++ walks).foldlM Network.addLink nodes

omit [Scalar α] in
/-- The numbers of some stops increase along them. -/
theorem pairwise_numbers (stops : List (Halt α)) (keep : Halt α × Nat → Bool) :
    ((stops.zipIdx.filter keep).map (·.2)).Pairwise (· ≤ ·) := by
  have all : (stops.zipIdx.map (·.2)).Pairwise (· < ·) := by
    rw [List.zipIdx_map_snd]
    exact List.pairwise_lt_range'
  exact (all.sublist (List.filter_sublist.map _)).imp Nat.le_of_lt

/-- Sorting what an exact search finds gives the stops within the distance in their order. -/
theorem mergeSort_found {search : RadiusSearch α} (exact : search.IsExact)
    (stops : List (Halt α)) (origin : Halt α) (limit : α) :
    ((search (boardingEntries stops) origin.place limit).filter fun index =>
      stops[index]?.any fun halt => halt.route != origin.route).mergeSort =
      (stops.zipIdx.filter fun entry => entry.1.route != origin.route && entry.1.canBoard &&
        decide (origin.place.squaredDistance entry.1.place ≤ limit)).map (·.2) := by
  have found := (exact (boardingEntries stops) origin.place limit).filter fun index =>
    stops[index]?.any fun halt => halt.route != origin.route
  have inOrder : (((boardingEntries stops).filter fun entry =>
      origin.place.squaredDistance entry.1 ≤ limit).map (·.2)).filter (fun index =>
        stops[index]?.any fun halt => halt.route != origin.route) =
      (stops.zipIdx.filter fun entry => entry.1.route != origin.route && entry.1.canBoard &&
        decide (origin.place.squaredDistance entry.1.place ≤ limit)).map (·.2) := by
    simp only [boardingEntries, List.filter_map, List.map_map, List.filter_filter,
      Function.comp_def]
    congr 1
    refine List.filter_congr fun entry member => ?_
    rw [List.mk_mem_zipIdx_iff_getElem?.mp member, Option.any_some, Bool.and_assoc,
      Bool.and_comm entry.1.canBoard]
  refine List.Perm.eq_of_pairwise (fun _ _ _ _ => Nat.le_antisymm) ?_ (pairwise_numbers stops _)
    ((List.mergeSort_perm _ _).trans (inOrder ▸ found))
  exact List.pairwise_mergeSort' _ _

/-- However a search finds the stops that are near, the transfers are the same. -/
theorem transfersFromBy_eq {search : RadiusSearch α} (exact : search.IsExact)
    (settings : RouterSettings α) (stops : List (Halt α)) (origin : Halt α) :
    transfersFromBy search settings stops origin =
      transfersFrom settings ⟨(stops.filter (·.canBoard)).map fun halt => (halt.place, halt)⟩
        origin := by
  rw [transfersFromBy, transfersFrom_eq]
  dsimp only
  rw [mergeSort_found exact, List.filterMap_map]
  congr 1
  funext checked
  congr 1
  calc (stops.zipIdx.filter fun entry => entry.1.route != origin.route && entry.1.canBoard &&
        decide (origin.place.squaredDistance entry.1.place ≤
          Scalar.square settings.transferRadius)).filterMap
            ((fun index => stops[index]?.map (transfer settings.walkSpeed origin)) ∘ (·.2))
      = (stops.zipIdx.filter fun entry => entry.1.route != origin.route && entry.1.canBoard &&
          decide (origin.place.squaredDistance entry.1.place ≤
            Scalar.square settings.transferRadius)).map
              (transfer settings.walkSpeed origin ∘ (·.1)) := by
        rw [← List.filterMap_eq_map]
        refine List.filterMap_congr fun entry member => ?_
        have found := List.mk_mem_zipIdx_iff_getElem?.mp (List.mem_of_mem_filter member)
        simp [found]
    _ = _ := by
        conv_rhs => rw [← List.zipIdx_map_fst 0 stops, List.filter_map, List.map_map]
        rfl

/-- However a search finds the stops that are near, the network is the same. -/
theorem toNetworkBy_eq {search : RadiusSearch α} (exact : search.IsExact)
    (timetable : Timetable α) (settings : RouterSettings α) :
    toNetworkBy search timetable settings = toNetwork timetable settings := by
  have walked (stops : List (Halt α)) :
      transfersBy search settings stops = transfers settings stops := by
    have places : (boardingEntries stops).map (·.1) =
        ((stops.filter (·.canBoard)).map fun halt => (halt.place, halt)).map (·.1) := by
      conv_rhs => rw [← List.zipIdx_map_fst 0 stops, List.filter_map, List.map_map, List.map_map]
      rw [boardingEntries, List.map_map]
      rfl
    have checks {β : Type} (entries : List (Point α × β)) :
        (entries.forM fun entry => Places.check entry.1) =
          (entries.map (·.1)).forM Places.check := List.forM_map.symm
    have same : transfersFromBy search settings stops = transfersFrom settings
        ⟨(stops.filter (·.canBoard)).map fun halt => (halt.place, halt)⟩ := by
      funext origin
      exact transfersFromBy_eq exact settings stops origin
    rw [transfersBy, transfers, Places.ofList, checks, checks, places, bind_assoc, same]
    rfl
  simp only [toNetworkBy, toNetwork, walked]

end JourneyTimes.Timetable
