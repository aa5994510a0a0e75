import JourneyTimes.Cost.Readers
import JourneyTimes.Proofs.Timetable.NextDeparture

/-!
# Readers find the next departure

Whatever the readers of a timetable have been asked, and however they have been
cloned and cleared, their caches hold the sorted departures of routes and nothing
else.  A reader therefore answers as the timetable does, and the next departure
that it gives is the next one.
-/

namespace JourneyTimes.Transit.Readers

section

variable {α : Type} [Scalar α] {timetable : Timetable α} {settings : RouterSettings α}
  {family : Readers α}

/-- The readers that come of a first one by asking, cloning and clearing. -/
inductive Grown (timetable : Timetable α) (settings : RouterSettings α) : Readers α → Prop where
  | make : Grown timetable settings (make timetable settings)
  | nextDeparture {family next : Readers α} {number route stop : Nat} {time departure : α}
      (grown : Grown timetable settings family)
      (asked : family.nextDeparture? number route stop time = some (departure, next)) :
      Grown timetable settings next
  | travelTime {family next : Readers α} {number : Nat} {link : Graph.Link α}
      {time duration : α} (grown : Grown timetable settings family)
      (asked : family.travelTime? number link time = some (duration, next)) :
      Grown timetable settings next
  | disutility {family next : Readers α} {number : Nat} {link : Graph.Link α}
      {time price : α} (grown : Grown timetable settings family)
      (asked : family.disutility? number link time = some (price, next)) :
      Grown timetable settings next
  | clone {family next : Readers α} {number copy : Nat} (grown : Grown timetable settings family)
      (cloned : family.clone? number = some (copy, next)) : Grown timetable settings next
  | clear {family next : Readers α} {number : Nat} (grown : Grown timetable settings family)
      (cleared : family.clear? number = some next) : Grown timetable settings next

/-- Asking for the next departure puts the departures of the route into a cache. -/
theorem nextDeparture?_eq_some {next : Readers α} {number route stop : Nat} {time departure : α}
    (asked : family.nextDeparture? number route stop time = some (departure, next)) :
    ∃ reader, next = family.keep reader route (family.lookUp (family.cacheOf reader) route) := by
  rcases Option.bind_eq_some_iff.mp asked with ⟨reader, -, asked⟩
  rcases Option.bind_eq_some_iff.mp asked with ⟨found, -, asked⟩
  cases asked
  exact ⟨reader, rfl⟩

/-- Asking how long a link takes changes nothing if the answer is remembered.  Otherwise the
answer is remembered now, and for a ride the departures of its route are put into a cache. -/
theorem travelTime?_eq_some {next : Readers α} {number : Nat} {link : Graph.Link α}
    {time duration : α}
    (asked : family.travelTime? number link time = some (duration, next)) :
    next = family ∨ (∃ memo, next = family.remember number memo) ∨ ∃ reader route memo,
      next = (family.keep reader route
        (family.lookUp (family.cacheOf reader) route)).remember number memo := by
  rcases Option.bind_eq_some_iff.mp asked with ⟨reader, -, asked⟩
  split at asked
  · cases asked
    exact .inl rfl
  · split at asked
    · cases asked
      exact .inr (.inl ⟨_, rfl⟩)
    · rcases Option.bind_eq_some_iff.mp asked with ⟨ends, -, asked⟩
      cases asked
      exact .inr (.inr ⟨reader, _, _, rfl⟩)

/-- A reader remembers the answer to the last question about how long a link takes. -/
theorem remembered?_eq_some {reader : Reader α} {link : Graph.Link α} {time duration : α}
    (known : remembered? reader link time = some duration) :
    ∃ memo, reader.memo = some memo ∧ memo.link = link.index ∧ (memo.time == time) = true ∧
      memo.duration = duration := by
  rw [remembered?] at known
  split at known
  · rename_i memo held
    split_ifs at known with isLast
    exact ⟨memo, held, isLast.1, isLast.2, Option.some.inj known⟩
  · cases known

omit [Scalar α] in
/-- A clone is one of the readers once more. -/
theorem clone?_eq_some {next : Readers α} {number copy : Nat}
    (cloned : family.clone? number = some (copy, next)) :
    ∃ readers, next = { family with readers } ∧
      ∀ (other : Nat) (reader : Reader α), readers[other]? = some reader →
        ∃ before : Nat, family.readers[before]? = some reader := by
  rcases Option.bind_eq_some_iff.mp cloned with ⟨original, originalFound, cloned⟩
  cases cloned
  refine ⟨_, rfl, fun other reader found => ?_⟩
  rw [Array.getElem?_push] at found
  split_ifs at found
  · cases found
    exact ⟨number, originalFound⟩
  · exact ⟨other, found⟩

omit [Scalar α] in
/-- A reader that is cleared gets a new cache and remembers nothing.  Other caches and readers
stay as they are. -/
theorem clear?_eq_some {next : Readers α} {number : Nat}
    (cleared : family.clear? number = some next) :
    ∃ caches readers, next = { family with caches, readers } ∧
      caches.size = family.caches.size + 1 ∧
      (∀ (other : Nat) (cache : DepartureCache α), caches[other]? = some cache →
        other = family.caches.size ∧ cache = emptyCache family.timetable ∨
          family.caches[other]? = some cache) ∧
      ∀ (other : Nat) (reader : Reader α), readers[other]? = some reader →
        reader = ⟨family.caches.size, none⟩ ∨ family.readers[other]? = some reader := by
  rcases Option.bind_eq_some_iff.mp cleared with ⟨original, -, cleared⟩
  cases cleared
  refine ⟨_, _, rfl, Array.size_push .., ?_, ?_⟩
  · intro other cache found
    rw [Array.getElem?_push] at found
    split_ifs at found with isNew
    · exact .inl ⟨isNew, (Option.some.inj found).symm⟩
    · exact .inr found
  · intro other reader found
    rw [Array.getElem?_setIfInBounds] at found
    split_ifs at found
    · exact .inl (Option.some.inj found).symm
    · exact .inr found

/-- What holds of a new reader holds of all readers, if it is kept when departures are put into
a cache, when an answer is remembered, and when readers are cloned and cleared. -/
theorem Grown.keeps {Holds : Readers α → Prop} (grown : Grown timetable settings family)
    (make : Holds (Readers.make timetable settings))
    (keep : ∀ {family : Readers α} (reader : Reader α) (route : Nat),
      Grown timetable settings family → Holds family →
        Holds (family.keep reader route (family.lookUp (family.cacheOf reader) route)))
    (remember : ∀ {family : Readers α} (number : Nat) (memo : Memo α),
      Holds family → Holds (family.remember number memo))
    (clone : ∀ {family next : Readers α} {number copy : Nat}, Grown timetable settings family →
      Holds family → family.clone? number = some (copy, next) → Holds next)
    (clear : ∀ {family next : Readers α} {number : Nat}, Grown timetable settings family →
      Holds family → family.clear? number = some next → Holds next) : Holds family := by
  have travelTime {family next : Readers α} {number : Nat} {link : Graph.Link α}
      {time duration : α} (grown : Grown timetable settings family) (holds : Holds family)
      (asked : family.travelTime? number link time = some (duration, next)) : Holds next := by
    rcases travelTime?_eq_some asked with
      rfl | ⟨memo, rfl⟩ | ⟨reader, route, memo, rfl⟩
    · exact holds
    · exact remember number memo holds
    · exact remember number memo (keep reader route grown holds)
  induction grown with
  | make => exact make
  | nextDeparture grown asked ih =>
      rcases nextDeparture?_eq_some asked with ⟨reader, rfl⟩
      exact keep reader _ grown ih
  | travelTime grown asked ih => exact travelTime grown ih asked
  | disutility grown asked ih =>
      rcases Option.bind_eq_some_iff.mp asked with ⟨⟨duration, family⟩, timed, asked⟩
      cases asked
      exact travelTime grown ih timed
  | clone grown cloned ih => exact clone grown ih cloned
  | clear grown cleared ih => exact clear grown ih cleared

/-- The caches hold the sorted departures of routes of the timetable. -/
structure Faithful (timetable : Timetable α) (family : Readers α) : Prop where
  timetable_eq : family.timetable = timetable
  cached : ∀ (number : Nat) (cache : DepartureCache α), family.caches[number]? = some cache →
    ∀ (route : Nat) (departures : List α), cache[route]? = some (some departures) →
      departures = (allDepartures timetable).getD route []

namespace Faithful

omit [Scalar α] in
theorem emptyCache_none (timetable : Timetable α) (route : Nat) (departures : List α) :
    (emptyCache timetable)[route]? ≠ some (some departures) := by
  rw [emptyCache, Array.getElem?_replicate]
  split_ifs <;> simp

theorem make : Faithful timetable (Readers.make timetable settings) where
  timetable_eq := rfl
  cached := by
    intro number cache found route departures held
    obtain rfl : cache = emptyCache timetable := by
      rcases Array.getElem?_eq_some_iff.mp found with ⟨inside, rfl⟩
      simp [Readers.make]
    exact absurd held (emptyCache_none timetable route departures)

/-- What is looked up in a cache are the departures of the timetable. -/
theorem lookUp_eq (faithful : Faithful timetable family) (reader : Reader α) (route : Nat) :
    family.lookUp (family.cacheOf reader) route = (allDepartures timetable).getD route [] := by
  rw [lookUp]
  cases held : ((family.cacheOf reader)[route]?).join with
  | none =>
      rw [faithful.timetable_eq, allDepartures, Array.getD_eq_getD_getElem?, Array.getElem?_map]
      cases timetable.routes[route]? <;> rfl
  | some departures =>
      rw [Option.join_eq_some_iff] at held
      rw [cacheOf, Array.getD_eq_getD_getElem?] at held
      cases found : family.caches[reader.cache]? with
      | none => simp [found] at held
      | some cache =>
          rw [found, Option.getD_some] at held
          exact faithful.cached reader.cache cache found route departures held

theorem keep (faithful : Faithful timetable family) (reader : Reader α) {route : Nat}
    {departures : List α} (sorted : departures = (allDepartures timetable).getD route []) :
    Faithful timetable (family.keep reader route departures) where
  timetable_eq := faithful.timetable_eq
  cached := by
    intro number cache found other others held
    rw [Readers.keep, Array.getElem?_modify] at found
    split_ifs at found with same
    · rcases Option.map_eq_some_iff.mp found with ⟨before, beforeFound, rfl⟩
      rw [Array.getElem?_setIfInBounds] at held
      split_ifs at held with isRoute
      · cases held
        rw [← isRoute]
        exact sorted
      · exact faithful.cached number before beforeFound other others held
    · exact faithful.cached number cache found other others held

theorem remember (faithful : Faithful timetable family) (number : Nat) (memo : Memo α) :
    Faithful timetable (family.remember number memo) :=
  ⟨faithful.timetable_eq, faithful.cached⟩

theorem clone {next : Readers α} {number copy : Nat} (faithful : Faithful timetable family)
    (cloned : family.clone? number = some (copy, next)) : Faithful timetable next := by
  rcases clone?_eq_some cloned with ⟨readers, rfl, -⟩
  exact ⟨faithful.timetable_eq, faithful.cached⟩

theorem clear {next : Readers α} {number : Nat} (faithful : Faithful timetable family)
    (cleared : family.clear? number = some next) : Faithful timetable next := by
  rcases clear?_eq_some cleared with ⟨caches, readers, rfl, -, known, -⟩
  refine ⟨faithful.timetable_eq, ?_⟩
  intro number cache found route departures held
  rcases known number cache found with ⟨-, rfl⟩ | old
  · exact absurd held (emptyCache_none _ route departures)
  · exact faithful.cached number cache old route departures held

end Faithful

/-- However readers are used, their caches stay faithful. -/
theorem Grown.faithful (grown : Grown timetable settings family) :
    Faithful timetable family := by
  refine grown.keeps .make ?_ ?_ ?_ ?_
  · exact fun reader route _ faithful => faithful.keep reader (faithful.lookUp_eq reader route)
  · exact fun number memo faithful => faithful.remember number memo
  · exact fun _ faithful cloned => faithful.clone cloned
  · exact fun _ faithful cleared => faithful.clear cleared

/-- A reader answers with the next departure of the timetable. -/
theorem Faithful.nextDeparture?_eq (faithful : Faithful timetable family) {number : Nat}
    (known : number < family.readers.size) {route : Timetable.Route α} {routeNumber : Nat}
    (routeFound : timetable.routes[routeNumber]? = some route) {stop : Timetable.Stop α}
    {stopNumber : Nat} (stopFound : route.stops[stopNumber]? = some stop) (time : α) :
    ∃ next, family.nextDeparture? number routeNumber stopNumber time =
      some (Timetable.nextDeparture route.sortedDepartures stop.offsets.departure time, next) := by
  have departures : (allDepartures timetable).getD routeNumber [] = route.sortedDepartures := by
    rw [allDepartures, Array.getD_eq_getD_getElem?, Array.getElem?_map, routeFound]
    rfl
  have served : family.timetable.stop? routeNumber stopNumber = some stop := by
    rw [faithful.timetable_eq, Timetable.stop?, routeFound]
    exact stopFound
  rw [nextDeparture?, Array.getElem?_eq_getElem known]
  refine ⟨family.keep family.readers[number] routeNumber route.sortedDepartures, ?_⟩
  simp only [Option.bind_eq_bind, Option.bind_some, served, faithful.lookUp_eq, departures]
  rfl

end

variable {K : Type} [Field K] [LinearOrder K] [FloorRing K] [Trigonometry K]
  [IsStrictOrderedRing K]

/-- At the offset of a stop or later, a reader gives the least time at which a
vehicle of any day leaves the stop and that is not in the past, and before the
offset the first departure of the day.  The loop that adds days ends. -/
theorem nextDeparture?_isNext {timetable : Timetable (Exact K)}
    {settings : RouterSettings (Exact K)} {family : Readers (Exact K)}
    (grown : Grown timetable settings family) {number : Nat}
    (known : number < family.readers.size) {route : Timetable.Route (Exact K)} {routeNumber : Nat}
    (routeFound : timetable.routes[routeNumber]? = some route) {stop : Timetable.Stop (Exact K)}
    {stopNumber : Nat} (stopFound : route.stops[stopNumber]? = some stop) {offset : K}
    (offsetEq : stop.offsets.departure = offset) (departs : route.departures ≠ [])
    (withinDay : route.DepartsWithinDay) (time : K) :
    ∃ (leaving : K) (next : Readers (Exact K)),
      family.nextDeparture? number routeNumber stopNumber time = some (↑leaving, next) ∧
      route.LoopEndsAt offset time leaving ∧
      (offset ≤ time → IsLeast {leaving | route.LeavesAt offset leaving ∧ time ≤ leaving}
        leaving) ∧
      (time < offset → ∃ first, IsLeast {clock | route.Departs clock} first ∧
        leaving = first + offset) := by
  rcases grown.faithful.nextDeparture?_eq known routeFound stopFound (time : Exact K) with
    ⟨next, answered⟩
  rw [offsetEq] at answered
  rcases le_or_gt offset time with after | before
  · rcases withinDay.nextDeparture_isLeast departs after with ⟨leaving, leavingEq, ends, least⟩
    rw [leavingEq] at answered
    exact ⟨leaving, next, answered, ends, fun _ => least,
      fun before => absurd after (not_le.mpr before)⟩
  · rcases withinDay.nextDeparture_isFirst departs before with ⟨first, leavingEq, ends, least⟩
    rw [leavingEq] at answered
    exact ⟨first + offset, next, answered, ends, fun after => absurd after (not_le.mpr before),
      fun _ => ⟨first, least, rfl⟩⟩

/-- A night line: its departures come in no order and one of them twice, and it takes
more than a day to its last stop. -/
def nightLine : Timetable.Route (Exact ℚ) where
  line := "N"
  id := "n"
  mode := "bus"
  stops := [⟨"p", .departureOnly (0 : ℚ)⟩, ⟨"q", .arrivalOnly (90000 : ℚ)⟩]
  departures := [⟨"a", (85800 : ℚ), none⟩, ⟨"b", (600 : ℚ), none⟩, ⟨"c", (21600 : ℚ), none⟩,
    ⟨"d", (600 : ℚ), none⟩]

theorem nextDeparture?_isNext_nightLine :
    ∃ (leaving : ℚ) (next : Readers (Exact ℚ)),
      (Readers.make (Timetable.empty.addRouteUnchecked nightLine) .default).nextDeparture?
          0 0 1 (262800 : ℚ) = some (↑leaving, next) ∧
      nightLine.LoopEndsAt (90000 : ℚ) (262800 : ℚ) leaving ∧
      ((90000 : ℚ) ≤ 262800 → IsLeast
        {leaving | nightLine.LeavesAt 90000 leaving ∧ 262800 ≤ leaving} leaving) ∧
      ((262800 : ℚ) < 90000 → ∃ first, IsLeast {clock | nightLine.Departs clock} first ∧
        leaving = first + 90000) := by
  have served : nightLine.stops[1]? = some ⟨"q", .arrivalOnly (90000 : ℚ)⟩ := rfl
  refine nextDeparture?_isNext .make (by decide) rfl served rfl (by simp [nightLine]) ?_ 262800
  intro departure member
  simp [nightLine] at member
  rcases member with rfl | rfl | rfl | rfl
  all_goals exact ⟨_, by norm_num, rfl⟩

end JourneyTimes.Transit.Readers
