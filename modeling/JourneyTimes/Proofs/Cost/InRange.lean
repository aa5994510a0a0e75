import JourneyTimes.Proofs.Cost.Overtaking
import JourneyTimes.Proofs.Cost.Readers
import JourneyTimes.Proofs.Timetable.Links

/-!
# Questions about links are never out of range

The links of a transit network stand for stretches that are in its timetable, and so do
those that are left when the network is filtered by modes and cleaned.  The cost model of
the timetable therefore has a price for every link of the graph that is made of it, and
readers find the route, both stops and a slot in their cache for it, however they have
been used, cloned and cleared before.
-/

namespace JourneyTimes

variable {α : Type} [Scalar α]

namespace Transit.Readers

variable {timetable : Timetable α} {settings : RouterSettings α} {family : Readers α}

/-- Every cache has a slot for each route, and every reader has a cache. -/
structure Fitted (timetable : Timetable α) (family : Readers α) : Prop where
  slots : ∀ (number : Nat) (cache : DepartureCache α), family.caches[number]? = some cache →
    cache.size = timetable.routes.size
  cached : ∀ (number : Nat) (reader : Reader α), family.readers[number]? = some reader →
    reader.cache < family.caches.size

namespace Fitted

omit [Scalar α] in
theorem make : Fitted timetable (Readers.make timetable settings) where
  slots := by
    intro number cache found
    rcases Array.getElem?_eq_some_iff.mp found with ⟨inside, rfl⟩
    simp [Readers.make, emptyCache]
  cached := by
    intro number reader found
    rcases Array.getElem?_eq_some_iff.mp found with ⟨inside, rfl⟩
    simp [Readers.make]

omit [Scalar α] in
theorem keep (fitted : Fitted timetable family) (reader : Reader α) (route : Nat)
    (departures : List α) : Fitted timetable (family.keep reader route departures) where
  slots := by
    intro number cache found
    rw [Readers.keep, Array.getElem?_modify] at found
    split_ifs at found with same
    · rcases Option.map_eq_some_iff.mp found with ⟨before, beforeFound, rfl⟩
      rw [Array.size_setIfInBounds]
      exact fitted.slots number before beforeFound
    · exact fitted.slots number cache found
  cached := by
    intro number other found
    rw [Readers.keep, Array.size_modify]
    exact fitted.cached number other found

omit [Scalar α] in
theorem remember (fitted : Fitted timetable family) (number : Nat) (memo : Memo α) :
    Fitted timetable (family.remember number memo) where
  slots := fitted.slots
  cached := by
    intro other reader found
    rw [Readers.remember, Array.getElem?_modify] at found
    split_ifs at found with same
    · rcases Option.map_eq_some_iff.mp found with ⟨before, beforeFound, rfl⟩
      exact fitted.cached other before beforeFound
    · exact fitted.cached other reader found

omit [Scalar α] in
theorem clone {next : Readers α} {number copy : Nat} (fitted : Fitted timetable family)
    (cloned : family.clone? number = some (copy, next)) : Fitted timetable next := by
  rcases clone?_eq_some cloned with ⟨readers, rfl, known⟩
  refine ⟨fitted.slots, fun other reader found => ?_⟩
  rcases known other reader found with ⟨before, old⟩
  exact fitted.cached before reader old

omit [Scalar α] in
theorem clear {next : Readers α} {number : Nat} (fitted : Fitted timetable family)
    (same : family.timetable = timetable) (cleared : family.clear? number = some next) :
    Fitted timetable next := by
  rcases clear?_eq_some cleared with ⟨caches, readers, rfl, oneMore, knownCache, knownReader⟩
  constructor
  case slots =>
    intro other cache found
    rcases knownCache other cache found with ⟨-, rfl⟩ | old
    · rw [emptyCache, Array.size_replicate, same]
    · exact fitted.slots other cache old
  case cached =>
    intro other reader found
    rw [oneMore]
    rcases knownReader other reader found with rfl | old
    · exact Nat.lt_succ_self _
    · exact Nat.lt_succ_of_lt (fitted.cached other reader old)

end Fitted

/-- However readers are used, each has a cache with a slot for every route. -/
theorem Grown.fitted (grown : Grown timetable settings family) : Fitted timetable family := by
  refine grown.keeps .make ?_ ?_ ?_ ?_
  · exact fun reader route _ fitted => fitted.keep reader route _
  · exact fun number memo fitted => fitted.remember number memo
  · exact fun _ fitted cloned => fitted.clone cloned
  · exact fun grown fitted cleared => fitted.clear grown.faithful.timetable_eq cleared

/-- A reader answers all questions about a link, at any time, and its cache has a slot for
the route. -/
structure Serves (family : Readers α) (number : Nat) (link : Graph.Link α) : Prop where
  travelTime : ∀ time, (family.travelTime? number link time).isSome = true
  disutility : ∀ time, (family.disutility? number link time).isSome = true
  minimum : (family.minimum? number link).isSome = true
  nextDeparture : ∀ stretch, link.stretch = some stretch → ∀ time,
    (family.nextDeparture? number stretch.route stretch.fromStop time).isSome = true
  slot : ∀ stretch, link.stretch = some stretch →
    ∃ reader, family.readers[number]? = some reader ∧
      stretch.route < (family.cacheOf reader).size

omit [Scalar α] in
/-- A timetable that prices a link has the stops at its ends. -/
theorem ends_of_prices {link : Graph.Link α} (priced : prices timetable link = true)
    {stretch : Stretch} (stands : link.stretch = some stretch) :
    ∃ origin destination, timetable.stop? stretch.route stretch.fromStop = some origin ∧
      timetable.stop? stretch.route stretch.toStop = some destination := by
  rw [prices, stands] at priced
  rcases Option.isSome_iff_exists.mp priced with ⟨⟨origin, destination⟩, found⟩
  rcases Option.bind_eq_some_iff.mp found with ⟨_, originFound, found⟩
  rcases Option.bind_eq_some_iff.mp found with ⟨_, destinationFound, found⟩
  cases found
  exact ⟨origin, destination, originFound, destinationFound⟩

section

variable (grown : Grown timetable settings family) {number : Nat}
  (known : number < family.readers.size)

include grown known

/-- The cache of a reader has a slot for every route that a stop is on. -/
theorem Grown.slot_lt {route stop : Nat} {found : Timetable.Stop α}
    (stopFound : timetable.stop? route stop = some found) :
    ∃ reader, family.readers[number]? = some reader ∧
      route < (family.cacheOf reader).size := by
  have readerFound := Array.getElem?_eq_getElem known
  rcases Option.bind_eq_some_iff.mp stopFound with ⟨served, routeFound, -⟩
  refine ⟨_, readerFound, ?_⟩
  have cached := grown.fitted.cached number _ readerFound
  rw [cacheOf, Array.getD_eq_getD_getElem?, Array.getElem?_eq_getElem cached, Option.getD_some,
    grown.fitted.slots _ _ (Array.getElem?_eq_getElem cached)]
  exact (Array.getElem?_eq_some_iff.mp routeFound).1

variable {link : Graph.Link α} (priced : prices timetable link = true)

include priced

theorem Grown.travels (time : α) : (family.travelTime? number link time).isSome = true := by
  rw [travelTime?, Array.getElem?_eq_getElem known]
  dsimp only [Option.bind_eq_bind, Option.bind_some]
  split
  · rfl
  · split
    · rfl
    · rename_i stretch stands
      rcases ends_of_prices priced stands with ⟨origin, destination, originFound, destinationFound⟩
      simp [ends?, grown.faithful.timetable_eq, originFound, destinationFound]

/-- A reader serves every link that the timetable prices. -/
theorem Grown.serves : Serves family number link := by
  have same := grown.faithful.timetable_eq
  have readerFound := Array.getElem?_eq_getElem known
  constructor
  case travelTime => exact grown.travels known priced
  case disutility =>
    intro time
    rcases Option.isSome_iff_exists.mp (grown.travels known priced time) with ⟨answer, found⟩
    rw [disutility?, found]
    rfl
  case minimum =>
    rw [minimum?, readerFound, same]
    dsimp only [Option.bind_eq_bind, Option.bind_some]
    rw [if_pos priced]
    rfl
  case nextDeparture =>
    intro stretch stands time
    rcases ends_of_prices priced stands with ⟨origin, -, originFound, -⟩
    rw [nextDeparture?, readerFound]
    simp [same, originFound]
  case slot =>
    intro stretch stands
    rcases ends_of_prices priced stands with ⟨origin, -, originFound, -⟩
    exact grown.slot_lt known originFound

end

end Transit.Readers

/-! ## Graphs of transit networks -/

namespace Timetable

/-- The links of a transit network are the rides and the transfers of its timetable, in this
order and no others, however a search finds the stops that are near.  The graph of every part
of it has only stretches that are in the timetable, and every reader serves its links. -/
theorem toNetworkBy_links {search : RadiusSearch α} (exact : search.IsExact)
    {timetable : Timetable α} {settings : RouterSettings α} {network : Network α}
    (made : timetable.toNetworkBy search settings = .ok network) :
    (∃ rides walks, network.links.toList = rides ++ walks ∧
      List.Forall₂ (IsRide timetable) timetable.ridePositions rides ∧
      List.Forall₂ (IsTransfer timetable settings) (timetable.transferPairs settings) walks) ∧
    ∀ part identity, network.Reduced part → ∃ graph, Graph.ofNetwork identity part = .ok graph ∧
      ∀ link ∈ graph.links,
        (∀ stretch, link.stretch = some stretch → stretch.toStop = stretch.fromStop + 1 ∧
          timetable.hasStop (stretch.route, stretch.toStop) = true) ∧
        (Transit.costModel timetable settings).prices link = true ∧
        ∀ family, Transit.Readers.Grown timetable settings family →
          ∀ number < family.readers.size, family.Serves number link := by
  rw [toNetworkBy_eq exact] at made
  refine ⟨toNetwork_legs made, fun part identity reduced => ?_⟩
  have wellFormed := reduced.wellFormed (toNetwork_wellFormed made)
  rcases wellFormed.exists_graph identity with ⟨graph, graphed⟩
  refine ⟨graph, graphed, fun link member => ?_⟩
  rcases Graph.ofNetwork_link graphed member with ⟨original, originalMember, -, sameStretch⟩
  have inRange (stretch : Stretch) (stands : link.stretch = some stretch) :
      stretch.toStop = stretch.fromStop + 1 ∧
        timetable.hasStop (stretch.route, stretch.toStop) = true :=
    toNetwork_stretch made (reduced.mem_links originalMember) (sameStretch ▸ stands)
  have priced : Transit.prices timetable link = true := by
    rw [Transit.prices]
    cases stands : link.stretch with
    | none => rfl
    | some stretch =>
        rcases inRange stretch stands with ⟨next, hasDestination⟩
        have hasOrigin : timetable.hasStop (stretch.route, stretch.fromStop) = true :=
          hasStop_of_next (next ▸ hasDestination)
        rcases Option.isSome_iff_exists.mp hasOrigin with ⟨origin, originFound⟩
        rcases Option.isSome_iff_exists.mp hasDestination with ⟨destination, destinationFound⟩
        simp only at originFound destinationFound
        simp [Transit.ends?, originFound, destinationFound]
  exact ⟨inRange, priced, fun family grown number known => grown.serves known priced⟩

/-- A search that looks at all points, from the last one to the first. -/
def RadiusSearch.backwards : RadiusSearch α := fun entries point limit =>
  ((entries.filter fun entry => point.squaredDistance entry.1 ≤ limit).map (·.2)).reverse

theorem RadiusSearch.backwards_isExact : (backwards : RadiusSearch α).IsExact :=
  fun _ _ _ => List.reverse_perm _

theorem transferPairs_connection :
    connection.transferPairs .reluctant = [((0, 1), (1, 0)), ((0, 2), (1, 0))] := by
  have positions : connection.stopPositions = [(0, 0), (0, 1), (0, 2), (1, 0), (1, 1)] := rfl
  have alighting : connection.stopPositions.filter (fun origin => 0 < origin.2) =
      [(0, 1), (0, 2), (1, 1)] := rfl
  rw [transferPairs, alighting, positions]
  simp only [List.flatMap_cons, List.flatMap_nil, List.filter_cons, List.filter_nil]
  simp [receives, hasStop, stop?, areNear, placeAt?, connection, Std.HashMap.getElem?_insert,
    Facility.at]
  decide +kernel

/-- On the two lines of the connection there are three rides, and the two last stops of the
one lead to the first stop of the other. -/
theorem toNetworkBy_links_connection :
    (.backwards : RadiusSearch (Exact ℚ)).IsExact ∧ ∃ network,
      connection.toNetworkBy .backwards .reluctant = .ok network ∧
      (∃ rides walks, network.links.toList = rides ++ walks ∧
        List.Forall₂ (IsRide connection) [(0, 0), (0, 1), (1, 0)] rides ∧
        List.Forall₂ (IsTransfer connection .reluctant)
          [((0, 1), (1, 0)), ((0, 2), (1, 0))] walks) ∧
      ∃ graph, Graph.ofNetwork 0 (network.filterByMode "bus").clean = .ok graph := by
  refine ⟨RadiusSearch.backwards_isExact, ?_⟩
  rcases toNetwork_connection with ⟨network, made, -⟩
  rw [← toNetworkBy_eq RadiusSearch.backwards_isExact] at made
  rcases toNetworkBy_links RadiusSearch.backwards_isExact made with ⟨links, parts⟩
  rw [transferPairs_connection] at links
  rcases parts _ 0 ((Network.Reduced.whole.filterByMode "bus").clean) with ⟨graph, graphed, -⟩
  exact ⟨network, made, links, graph, graphed⟩

end Timetable

end JourneyTimes
