import JourneyTimes.Cost.Transit
import JourneyTimes.Proofs.Geometry.Places
import JourneyTimes.Proofs.Network.WellFormed
import JourneyTimes.Timetable.Network

/-!
# The links of a transit network

A transit network has the rides of all routes and the transfers between their
stops, and nothing else.  Rides are stretches of the timetable that the network
is made from, so the cost model of that timetable prices every link.

Stops where people get on or off must have places with finite coordinates, or else
there is no network.  All links join such stops, so their lengths are numbers.
-/

namespace JourneyTimes

variable {α : Type} [Scalar α]

namespace Network

omit [Scalar α] in
theorem addLink_of_known {network : Network α} {link : Link α}
    (origin : link.origin ∈ network.positions)
    (destination : link.destination ∈ network.positions) :
    network.addLink link = .ok { network with links := network.links.push link } := by
  rw [addLink, unknownId?]
  simp [origin, destination]

omit [Scalar α] in
/-- Links are added at the end, or not at all. -/
theorem links_foldlM_addLink {links : List (Link α)} {network result : Network α}
    (done : links.foldlM addLink network = .ok result) :
    result.links.toList = network.links.toList ++ links := by
  induction links generalizing network with
  | nil =>
      cases done
      rw [List.append_nil]
  | cons link links ih =>
      rw [List.foldlM_cons] at done
      rcases bind_eq_ok.mp done with ⟨longer, added, rest⟩
      rcases addLink_eq_ok.mp added with ⟨-, rfl⟩
      rw [ih rest]
      simp

omit [Scalar α] in
/-- Adding links leaves the nodes. -/
theorem nodes_foldlM_addLink {links : List (Link α)} {network result : Network α}
    (done : links.foldlM addLink network = .ok result) :
    result.nodes = network.nodes ∧ result.positions = network.positions := by
  induction links generalizing network with
  | nil =>
      cases done
      exact ⟨rfl, rfl⟩
  | cons link links ih =>
      rw [List.foldlM_cons] at done
      rcases bind_eq_ok.mp done with ⟨longer, added, rest⟩
      rcases addLink_eq_ok.mp added with ⟨-, rfl⟩
      have later := ih rest
      exact later

end Network

namespace Timetable

omit [Scalar α] in
theorem links_foldl_addNode (stops : List (Halt α)) (network : Network α) :
    (stops.foldl (fun network halt => network.addNode halt.id halt.place) network).links =
      network.links := by
  induction stops generalizing network with
  | nil => rfl
  | cons halt stops ih => rw [List.foldl_cons, ih, Network.links_addNode]

/-- A network of a timetable has the rides of the routes, and then the
transfers. -/
theorem toNetwork_links {timetable : Timetable α} {settings : RouterSettings α}
    {network : Network α} (made : timetable.toNetwork settings = .ok network) :
    ∃ byRoute walks, halts timetable = .ok byRoute ∧
      transfers settings byRoute.flatten = .ok walks ∧
      network.links.toList = byRoute.flatMap rides ++ walks := by
  unfold toNetwork at made
  rcases bind_eq_ok.mp made with ⟨byRoute, stops, made⟩
  rcases bind_eq_ok.mp made with ⟨walks, walked, made⟩
  refine ⟨byRoute, walks, stops, walked, ?_⟩
  rw [Network.links_foldlM_addLink made, links_foldl_addNode]
  rfl

/-- A ride joins a stop of its route and the next one. -/
theorem mem_rides {stops : List (Halt α)} {link : Network.Link α} (member : link ∈ rides stops) :
    ∃ position origin destination, stops[position]? = some origin ∧
      stops[position + 1]? = some destination ∧ link = ride origin destination := by
  induction stops with
  | nil => cases member
  | cons origin stops ih =>
      cases stops with
      | nil => cases member
      | cons destination stops =>
          rcases List.mem_cons.mp member with rfl | later
          · exact ⟨0, origin, destination, rfl, rfl, rfl⟩
          · rcases ih later with ⟨position, first, second, firstFound, secondFound, same⟩
            exact ⟨position + 1, first, second, firstFound, secondFound, same⟩

omit [Scalar α] in
/-- A node of a route stands for a stop of the timetable. -/
theorem halt_stop {timetable : Timetable α} {byRoute : List (List (Halt α))}
    (made : halts timetable = .ok byRoute) {stops : List (Halt α)} (member : stops ∈ byRoute) :
    ∃ route, ∀ halt ∈ stops, halt.route = route ∧
      (timetable.stop? route halt.stop).isSome = true := by
  rcases exists_of_mapM_eq_ok made member with ⟨⟨route, routeIndex⟩, position, done⟩
  have routeFound := List.mk_mem_zipIdx_iff_getElem?.mp position
  rw [Array.getElem?_toList] at routeFound
  refine ⟨routeIndex, ?_⟩
  intro halt haltMember
  rcases exists_of_mapM_eq_ok done haltMember with ⟨⟨stop, stopIndex⟩, stopPosition, haltDone⟩
  have stopFound := List.mk_mem_zipIdx_iff_getElem?.mp stopPosition
  rcases bind_eq_ok.mp haltDone with ⟨place, -, made⟩
  cases made
  refine ⟨rfl, ?_⟩
  simp [stop?, routeFound, stopFound]

omit [Scalar α] in
/-- Where people get off and on depends on the position in the route. -/
theorem halt_ends {timetable : Timetable α} {byRoute : List (List (Halt α))}
    (made : halts timetable = .ok byRoute) {stops : List (Halt α)} (member : stops ∈ byRoute)
    {position : Nat} {halt : Halt α} (found : stops[position]? = some halt) :
    halt.canAlight = decide (0 < position) ∧
      halt.canBoard = decide (position + 1 < stops.length) := by
  rcases exists_of_mapM_eq_ok made member with ⟨⟨route, routeIndex⟩, -, done⟩
  have lengths := (forall₂_of_mapM_eq_ok done).length_eq
  rw [List.length_zipIdx] at lengths
  have inside := (List.getElem?_eq_some_iff.mp found).1
  have stopFound : route.stops.zipIdx[position]? = some (route.stops[position], position) := by
    rw [List.getElem?_zipIdx, List.getElem?_eq_getElem (lengths ▸ inside)]
    simp
  rcases getElem?_of_mapM_eq_ok done stopFound with ⟨made, haltDone, madeFound⟩
  obtain rfl : halt = made := Option.some.inj (found.symm.trans madeFound)
  rcases bind_eq_ok.mp haltDone with ⟨place, -, built⟩
  cases built
  rw [lengths]
  exact ⟨rfl, rfl⟩

/-- Stops where people get on or off have places with finite coordinates. -/
theorem isFinite_of_transfers {settings : RouterSettings α} {stops : List (Halt α)}
    {walks : List (Network.Link α)} (made : transfers settings stops = .ok walks)
    {halt : Halt α} (member : halt ∈ stops)
    (used : halt.canBoard = true ∨ halt.canAlight = true) : halt.place.isFinite = true := by
  unfold transfers at made
  rcases bind_eq_ok.mp made with ⟨boarding, collected, made⟩
  rcases bind_eq_ok.mp made with ⟨found, each, -⟩
  rcases used with boards | alights
  · refine (Places.ofList_eq_ok collected).2 (halt.place, halt) ?_
    exact List.mem_map_of_mem (List.mem_filter.mpr ⟨member, boards⟩)
  · have asked : halt ∈ stops.filter (·.canAlight) := List.mem_filter.mpr ⟨member, alights⟩
    rcases List.mem_iff_getElem?.mp asked with ⟨position, haltFound⟩
    rcases getElem?_of_mapM_eq_ok each haltFound with ⟨links, done, -⟩
    rcases bind_eq_ok.mp done with ⟨near, isNear, -⟩
    exact (Places.within_eq_ok isNear).1

/-- A transfer leads from a stop where people get off to one where they get on. -/
theorem mem_transfers {settings : RouterSettings α} {stops : List (Halt α)}
    {walks : List (Network.Link α)} (made : transfers settings stops = .ok walks)
    {link : Network.Link α} (member : link ∈ walks) :
    ∃ origin ∈ stops, ∃ destination ∈ stops, origin.canAlight = true ∧
      destination.canBoard = true ∧ link = transfer settings.walkSpeed origin destination := by
  unfold transfers at made
  rcases bind_eq_ok.mp made with ⟨boarding, collected, made⟩
  rcases bind_eq_ok.mp made with ⟨found, each, made⟩
  cases made
  rcases List.mem_flatten.mp member with ⟨links, linksMember, member⟩
  rcases exists_of_mapM_eq_ok each linksMember with ⟨origin, originMember, done⟩
  unfold transfersFrom at done
  rcases bind_eq_ok.mp done with ⟨near, isNear, done⟩
  cases done
  rcases List.mem_map.mp member with ⟨destination, destinationMember, rfl⟩
  rcases (Places.within_eq_ok isNear).2 destination (List.mem_of_mem_filter destinationMember)
    with ⟨place, entryMember⟩
  rw [(Places.ofList_eq_ok collected).1] at entryMember
  rcases List.mem_map.mp entryMember with ⟨halt, haltMember, same⟩
  cases same
  rcases List.mem_filter.mp originMember with ⟨originStop, alights⟩
  rcases List.mem_filter.mp haltMember with ⟨destinationStop, boards⟩
  exact ⟨origin, originStop, destination, destinationStop, alights, boards, rfl⟩

/-- A transfer stands for no stretch of the timetable. -/
theorem transfers_stretch {settings : RouterSettings α} {stops : List (Halt α)}
    {walks : List (Network.Link α)} (made : transfers settings stops = .ok walks) :
    ∀ link ∈ walks, link.stretch = none := by
  intro link member
  rcases mem_transfers made member with ⟨origin, -, destination, -, -, -, rfl⟩
  rfl

/-- The cost model of a timetable prices every link of its network. -/
theorem priced_toNetwork {timetable : Timetable α} {settings : RouterSettings α}
    {network : Network α} (made : timetable.toNetwork settings = .ok network) {identity : Nat}
    {graph : Graph α} (graphed : Graph.ofNetwork identity network = .ok graph) :
    ∀ link ∈ graph.links, (Transit.costModel timetable settings).prices link = true := by
  intro link member
  rcases Graph.ofNetwork_link graphed member with ⟨original, originalMember, -, stretch⟩
  rcases toNetwork_links made with ⟨byRoute, walks, stops, walked, links⟩
  rw [← Array.mem_toList_iff, links, List.mem_append] at originalMember
  change Transit.prices timetable link = true
  rw [Transit.prices, stretch]
  rcases originalMember with isRide | isWalk
  · rcases List.mem_flatMap.mp isRide with ⟨route, routeMember, isRide⟩
    rcases halt_stop stops routeMember with ⟨routeIndex, onRoute⟩
    rcases mem_rides isRide with
      ⟨position, origin, destination, originFound, destinationFound, rfl⟩
    rcases onRoute origin (List.mem_of_getElem? originFound) with ⟨rfl, originStop⟩
    rcases onRoute destination (List.mem_of_getElem? destinationFound) with ⟨-, destinationStop⟩
    rcases Option.isSome_iff_exists.mp originStop with ⟨first, firstEq⟩
    rcases Option.isSome_iff_exists.mp destinationStop with ⟨second, secondEq⟩
    simp [ride, Transit.ends?, firstEq, secondEq]
  · rw [transfers_stretch walked original isWalk]

/-- A link of a transit network is as long as the distance between two stops where people
get on or off. -/
theorem toNetwork_length {timetable : Timetable α} {settings : RouterSettings α}
    {network : Network α} (made : timetable.toNetwork settings = .ok network)
    {link : Network.Link α} (member : link ∈ network.links) :
    ∃ origin destination : Halt α, origin.place.isFinite = true ∧
      destination.place.isFinite = true ∧
      link.length = origin.place.distance destination.place := by
  rcases toNetwork_links made with ⟨byRoute, walks, stops, walked, links⟩
  rw [← Array.mem_toList_iff, links, List.mem_append] at member
  rcases member with isRide | isWalk
  · rcases List.mem_flatMap.mp isRide with ⟨route, routeMember, isRide⟩
    rcases mem_rides isRide with
      ⟨position, origin, destination, originFound, destinationFound, rfl⟩
    have stop {halt : Halt α} {index : Nat} (found : route[index]? = some halt) :
        halt ∈ byRoute.flatten :=
      List.mem_flatten.mpr ⟨route, routeMember, List.mem_of_getElem? found⟩
    have boards : origin.canBoard = true := by
      rw [(halt_ends stops routeMember originFound).2, decide_eq_true_eq]
      exact (List.getElem?_eq_some_iff.mp destinationFound).1
    have alights : destination.canAlight = true := by
      rw [(halt_ends stops routeMember destinationFound).1, decide_eq_true_eq]
      exact Nat.succ_pos position
    exact ⟨origin, destination, isFinite_of_transfers walked (stop originFound) (.inl boards),
      isFinite_of_transfers walked (stop destinationFound) (.inr alights), rfl⟩
  · rcases mem_transfers walked isWalk with
      ⟨origin, originStop, destination, destinationStop, alights, boards, rfl⟩
    exact ⟨origin, destination, isFinite_of_transfers walked originStop (.inr alights),
      isFinite_of_transfers walked destinationStop (.inl boards), rfl⟩

variable {K : Type} [Field K] [LinearOrder K] [FloorRing K] [Trigonometry K]
  [IsStrictOrderedRing K]

/-- No link of a transit network has a negative length. -/
theorem lengths_toNetwork (roots : ∀ value : K, 0 ≤ value → 0 ≤ Trigonometry.squareRoot value)
    {timetable : Timetable (Exact K)} {settings : RouterSettings (Exact K)}
    {network : Network (Exact K)} (made : timetable.toNetwork settings = .ok network)
    {identity : Nat} {graph : Graph (Exact K)}
    (graphed : Graph.ofNetwork identity network = .ok graph) :
    ∀ link ∈ graph.links, ∃ length : K, 0 ≤ length ∧ link.length = length := by
  intro link member
  rcases Graph.ofNetwork_link graphed member with ⟨original, originalMember, length, -⟩
  rcases toNetwork_length made originalMember with
    ⟨origin, destination, originFinite, destinationFinite, distance⟩
  rw [length, distance]
  exact Point.distance_finite roots originFinite destinationFinite

end Timetable

end JourneyTimes
