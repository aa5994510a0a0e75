import JourneyTimes.Proofs.Outcome
import JourneyTimes.Timetable.Network
import Mathlib.Data.List.Forall2
import Mathlib.Data.List.Nodup
import Mathlib.Data.List.Sigma

/-!
# The stops of a timetable

A stop is known by its position: that of its route in the timetable, and its own on the
route.  The nodes that are made for a transit network stand for these positions, one for
each and in the same order, and all that they say can be read off the timetable.
-/

namespace JourneyTimes.Timetable

variable {α : Type}

/-- The positions of all stops, route after route. -/
def stopPositions (timetable : Timetable α) : List (Nat × Nat) :=
  timetable.routes.toList.zipIdx.flatMap fun (route, routeIndex) =>
    (List.range route.stops.length).map fun stopIndex => (routeIndex, stopIndex)

/-- Whether there is a stop at a position. -/
def hasStop (timetable : Timetable α) (position : Nat × Nat) : Bool :=
  (timetable.stop? position.1 position.2).isSome

/-- The place of the facility that is served at a position. -/
def placeAt? (timetable : Timetable α) (position : Nat × Nat) : Option (Point α) := do
  let stop ← timetable.stop? position.1 position.2
  let facility ← timetable.facilities[stop.facility]?
  pure facility.place

/-- The id of the node for a position. -/
def nodeIdAt (timetable : Timetable α) (position : Nat × Nat) : String :=
  match timetable.routes[position.1]? with
  | some route => haltId route position.2
  | none => ""

theorem hasStop_iff {timetable : Timetable α} {position : Nat × Nat} :
    timetable.hasStop position = true ↔
      ∃ route, timetable.routes[position.1]? = some route ∧
        position.2 < route.stops.length := by
  rw [hasStop, stop?, Option.isSome_iff_exists]
  simp [Option.bind_eq_some_iff, List.getElem?_eq_some_iff, and_comm]

/-- Before every stop but the first of a route there is another one. -/
theorem hasStop_of_next {timetable : Timetable α} {position : Nat × Nat}
    (next : timetable.hasStop (position.1, position.2 + 1) = true) :
    timetable.hasStop position = true := by
  rcases hasStop_iff.mp next with ⟨route, found, inside⟩
  exact hasStop_iff.mpr ⟨route, found, Nat.lt_of_succ_lt inside⟩

theorem mem_stopPositions {timetable : Timetable α} {position : Nat × Nat} :
    position ∈ timetable.stopPositions ↔ timetable.hasStop position = true := by
  rcases position with ⟨routeIndex, stopIndex⟩
  simp only [hasStop_iff, stopPositions, List.mem_flatMap, List.mem_map, List.mem_range,
    Prod.exists, List.mk_mem_zipIdx_iff_getElem?, Array.getElem?_toList, Prod.mk.injEq]
  constructor
  · rintro ⟨route, _, found, _, inside, rfl, rfl⟩
    exact ⟨route, found, inside⟩
  · rintro ⟨route, found, inside⟩
    exact ⟨route, routeIndex, found, stopIndex, inside, rfl, rfl⟩

/-- Every position is that of one stop. -/
theorem nodup_stopPositions (timetable : Timetable α) : timetable.stopPositions.Nodup := by
  rw [stopPositions, List.nodup_flatMap]
  constructor
  · rintro ⟨route, routeIndex⟩ -
    exact List.nodup_range.map fun first second same => congrArg Prod.snd same
  · have apart := List.pairwise_map.mp (List.nodup_zipIdx_map_snd timetable.routes.toList)
    refine apart.imp ?_
    rintro ⟨left, first⟩ ⟨right, second⟩ differ position onLeft onRight
    rcases List.mem_map.mp onLeft with ⟨stop, -, rfl⟩
    rcases List.mem_map.mp onRight with ⟨other, -, same⟩
    exact differ (congrArg Prod.fst same).symm

/-- A node stands for the stop at a position. -/
structure Halt.IsAt (timetable : Timetable α) (position : Nat × Nat) (halt : Halt α) :
    Prop where
  hasStop : timetable.hasStop position = true
  route_eq : halt.route = position.1
  stop_eq : halt.stop = position.2
  id_eq : halt.id = timetable.nodeIdAt position
  place_eq : timetable.placeAt? position = some halt.place
  mode_eq : (timetable.routes[position.1]?).map (·.mode) = some halt.mode
  /-- People get off where the vehicle comes from another stop. -/
  canAlight_eq : halt.canAlight = decide (0 < position.2)
  /-- People get on where the vehicle goes on to another stop. -/
  canBoard_eq : halt.canBoard = timetable.hasStop (position.1, position.2 + 1)

theorem isAt_of_haltOf {timetable : Timetable α} {route : Route α} {stop : Stop α}
    {position : Nat × Nat} {halt : Halt α} (routeFound : timetable.routes[position.1]? = some route)
    (stopFound : route.stops[position.2]? = some stop)
    (made : haltOf timetable route position.1 stop position.2 = .ok halt) :
    halt.IsAt timetable position := by
  have inside := (List.getElem?_eq_some_iff.mp stopFound).1
  rcases bind_eq_ok.mp made with ⟨place, placed, made⟩
  cases made
  have known : timetable.placeAt? position = some place := by
    unfold placeOf at placed
    split at placed
    · rename_i facility found
      cases placed
      simp [placeAt?, stop?, routeFound, stopFound, found]
    · cases placed
  exact
    { hasStop := hasStop_iff.mpr ⟨route, routeFound, inside⟩
      route_eq := rfl
      stop_eq := rfl
      id_eq := by rw [nodeIdAt, routeFound]
      place_eq := known
      mode_eq := by rw [routeFound, Option.map_some]
      canAlight_eq := rfl
      canBoard_eq := by
        rw [Bool.eq_iff_iff, decide_eq_true_iff, hasStop_iff, routeFound]
        simp }

/-- The nodes of a route stand for its stops, one after another. -/
theorem forall₂_haltsOfRoute {timetable : Timetable α} {route : Route α} {routeIndex : Nat}
    (routeFound : timetable.routes[routeIndex]? = some route) {stops : List (Halt α)}
    (made : haltsOfRoute timetable route routeIndex = .ok stops) :
    List.Forall₂ (Halt.IsAt timetable)
      ((List.range route.stops.length).map fun stopIndex => (routeIndex, stopIndex)) stops := by
  have positions : (List.range route.stops.length).map (fun stopIndex => (routeIndex, stopIndex)) =
      route.stops.zipIdx.map fun entry => (routeIndex, entry.2) := by
    apply List.ext_getElem <;> simp
  rw [positions, List.forall₂_map_left_iff]
  refine ((List.forall₂_and_left _ _).mpr ⟨fun _ => id, forall₂_of_mapM_eq_ok made⟩).imp ?_
  rintro ⟨stop, stopIndex⟩ halt ⟨member, haltMade⟩
  exact isAt_of_haltOf routeFound (List.mk_mem_zipIdx_iff_getElem?.mp member) haltMade

/-- What holds of the nodes of every route, each compared with its own list of positions,
holds of the nodes of the timetable. -/
theorem forall₂_of_halts {timetable : Timetable α} {byRoute : List (List (Halt α))}
    (made : halts timetable = .ok byRoute) {β γ : Type} {Holds : β → γ → Prop}
    {positions : Route α → Nat → List β} {items : List (Halt α) → List γ}
    (each : ∀ route routeIndex stops, timetable.routes[routeIndex]? = some route →
      haltsOfRoute timetable route routeIndex = .ok stops →
        List.Forall₂ Holds (positions route routeIndex) (items stops)) :
    List.Forall₂ Holds
      (timetable.routes.toList.zipIdx.flatMap fun (route, routeIndex) =>
        positions route routeIndex)
      (byRoute.flatMap items) := by
  rw [List.flatMap_def, List.flatMap_def]
  apply List.rel_flatten
  rw [List.forall₂_map_left_iff, List.forall₂_map_right_iff]
  refine ((List.forall₂_and_left _ _).mpr ⟨fun _ => id, forall₂_of_mapM_eq_ok made⟩).imp ?_
  rintro ⟨route, routeIndex⟩ stops ⟨member, done⟩
  have routeFound := List.mk_mem_zipIdx_iff_getElem?.mp member
  rw [Array.getElem?_toList] at routeFound
  exact each route routeIndex stops routeFound done

/-- The nodes of a timetable stand for its stops, one after another. -/
theorem forall₂_halts {timetable : Timetable α} {byRoute : List (List (Halt α))}
    (made : halts timetable = .ok byRoute) :
    List.Forall₂ (Halt.IsAt timetable) timetable.stopPositions byRoute.flatten := by
  rw [← List.flatMap_id]
  exact forall₂_of_halts made fun _ _ _ found done => forall₂_haltsOfRoute found done

end JourneyTimes.Timetable
