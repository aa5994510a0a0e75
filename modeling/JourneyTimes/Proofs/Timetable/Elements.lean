import JourneyTimes.Proofs.Outcome
import JourneyTimes.Timetable.Document

/-!
# Elements of timetable documents

What the element of a facility, of a stop or of a departure says, attribute by attribute, and
which elements have a fault: they lack an attribute that they need, a time cannot be read, or a
stop has neither of its two times.

The events of a document are taken in by steps.  Each step takes one event, except that the
start of a mode's element is taken together with the text that follows it.
-/

namespace JourneyTimes.Markup

/-- The attributes of an element that starts, if it has a name. -/
def Event.start? (name : String) : Event → Option (List Attribute)
  | .elementStart found attributes => if found = name then some attributes else none
  | _ => none

theorem Event.start?_eq_some {name : String} {event : Event} {attributes : List Attribute} :
    event.start? name = some attributes ↔ event = .elementStart name attributes := by
  cases event <;> simp [Event.start?]

theorem require_eq_ok {attributes : List Attribute} {element name value : String} :
    require attributes element name = .ok value ↔ attribute? attributes name = some value := by
  unfold require
  split <;> simp_all

end JourneyTimes.Markup

namespace JourneyTimes.Clock

variable {α : Type} [Scalar α]

/-- However sums that are too large are treated, hours and minutes that a word has room for have
as many seconds as they have. -/
theorem secondsOf_of_lt [Arithmetic] {hours minutes : UInt32}
    (fits : hours.toNat * 3600 + minutes.toNat * 60 < UInt32.size) :
    (secondsOf hours minutes : Except Error α) =
      .ok (Scalar.ofNat (hours.toNat * 3600 + minutes.toNat * 60)) := by
  have seconds : (hours * 3600 + minutes * 60).toNat =
      hours.toNat * 3600 + minutes.toNat * 60 := by
    have bound : hours.toNat * 3600 + minutes.toNat * 60 < 2 ^ 32 := fits
    simp only [UInt32.toNat_add, UInt32.toNat_mul, UInt32.reduceToNat]
    omega
  rw [secondsOf, if_pos (.inr fits), seconds]

/-- Checked arithmetic refuses all other hours and minutes. -/
theorem secondsOf_of_le {hours minutes : UInt32}
    (large : UInt32.size ≤ hours.toNat * 3600 + minutes.toNat * 60) :
    (@secondsOf α _ checked hours minutes) = .error (.input .clockOverflow) := by
  refine if_neg ?_
  rintro (wraps | fits)
  · cases wraps
  · exact absurd large (Nat.not_le_of_lt fits)

end JourneyTimes.Clock

namespace JourneyTimes.Timetable

open JourneyTimes.Markup (Attribute Event attribute? require_eq_ok)

variable {α : Type}

/-! ## What elements say -/

namespace Offsets

/-- The arrival, if it is known by itself. -/
def knownArrival? : Offsets α → Option α
  | .arrivalOnly arrival | .both arrival _ => some arrival
  | .departureOnly _ => none

/-- The departure, if it is known by itself. -/
def knownDeparture? : Offsets α → Option α
  | .departureOnly departure | .both _ departure => some departure
  | .arrivalOnly _ => none

theorem ofKnown?_eq_some {arrival departure : Option α} {offsets : Offsets α} :
    ofKnown? arrival departure = some offsets ↔
      offsets.knownArrival? = arrival ∧ offsets.knownDeparture? = departure := by
  cases arrival <;> cases departure <;> cases offsets <;>
    simp [ofKnown?, knownArrival?, knownDeparture?, eq_comm]

theorem isSome_knownArrival?_or (offsets : Offsets α) :
    offsets.knownArrival?.isSome ∨ offsets.knownDeparture?.isSome := by
  cases offsets <;> simp [knownArrival?, knownDeparture?]

end Offsets

variable [Scalar α] [Numeric α] [Clock.Arithmetic] {attributes : List Attribute}

/-- A facility is the one that an element describes. -/
structure IsFacilityOf (attributes : List Attribute) (facility : Facility α) : Prop where
  id : attribute? attributes "id" = some facility.id
  x : (attribute? attributes "x").map Markup.readNumber = some (.ok facility.place.x)
  y : (attribute? attributes "y").map Markup.readNumber = some (.ok facility.place.y)
  link : attribute? attributes "linkRefId" = facility.link

/-- A stop is the one that an element describes: it is at the facility that is referred to,
and it has the times that are given, of which there is at least one. -/
structure IsStopOf (attributes : List Attribute) (stop : Stop α) : Prop where
  facility : attribute? attributes "refId" = some stop.facility
  arrival : (attribute? attributes "arrivalOffset").map Clock.read =
    stop.offsets.knownArrival?.map .ok
  departure : (attribute? attributes "departureOffset").map Clock.read =
    stop.offsets.knownDeparture?.map .ok
  timed : stop.offsets.knownArrival?.isSome ∨ stop.offsets.knownDeparture?.isSome

/-- A departure is the one that an element describes. -/
structure IsDepartureOf (attributes : List Attribute) (departure : Departure α) : Prop where
  id : attribute? attributes "id" = some departure.id
  time : (attribute? attributes "departureTime").map Clock.read = some (.ok departure.time)
  vehicle : attribute? attributes "vehicleRefId" = departure.vehicle

/-! ## Faults -/

namespace Element

/-- The names of the elements that a timetable is read from. -/
def kinds : List String :=
  ["stopFacility", "transitLine", "transitRoute", "stop", "departure", "transportMode"]

/-- The attributes that an element must have. -/
def required : String → List String
  | "stopFacility" => ["x", "y", "id"]
  | "transitLine" | "transitRoute" => ["id"]
  | "stop" => ["refId"]
  | "departure" => ["id", "departureTime"]
  | _ => []

/-- The attributes of an element that are times. -/
def times : String → List String
  | "stop" => ["arrivalOffset", "departureOffset"]
  | "departure" => ["departureTime"]
  | _ => []

variable (α) in
/-- What can be wrong with an element of a route. -/
inductive IsFaulty (name : String) (attributes : List Attribute) : Prop
  | missing (field : String) (needed : field ∈ required name)
    (absent : attribute? attributes field = none)
  | malformed (field text : String) (error : Error) (timed : field ∈ times name)
    (found : attribute? attributes field = some text)
    (rejected : (Clock.read text : Except Error α) = .error error)
  | untimed (stop : name = "stop")
    (absent : ∀ field ∈ times name, attribute? attributes field = none)

end Element

open Element

/-- An element without times has no fault if it has all that it needs. -/
theorem not_isFaulty_of_untimed {name : String} (untimed : times name = [])
    (other : name ≠ "stop") (given : ∀ field ∈ required name, attribute? attributes field ≠ none) :
    ¬ IsFaulty α name attributes := by
  rintro (⟨field, needed, absent⟩ | ⟨_, _, _, timed, _, _⟩ | ⟨stop, _⟩)
  · exact given field needed absent
  · simp [untimed] at timed
  · exact other stop

theorem not_isFaulty_of_not_mem {name : String} (other : name ∉ kinds) :
    ¬ IsFaulty α name attributes := by
  have unneeded : required name = [] := by
    unfold required
    split <;> simp_all [kinds]
  refine not_isFaulty_of_untimed ?_ ?_ (by simp [unneeded])
  · unfold times
    split <;> simp_all [kinds]
  · rintro rfl
    exact other (by simp [kinds])

theorem IsFacilityOf.not_isFaulty {facility : Facility α}
    (described : IsFacilityOf attributes facility) : ¬ IsFaulty α "stopFacility" attributes := by
  refine not_isFaulty_of_untimed rfl (by simp) fun field needed absent => ?_
  simp only [required, List.mem_cons, List.not_mem_nil, or_false] at needed
  rcases needed with rfl | rfl | rfl
  · simpa [absent] using described.x
  · simpa [absent] using described.y
  · simpa [absent] using described.id

theorem IsStopOf.not_isFaulty {stop : Stop α} (described : IsStopOf attributes stop) :
    ¬ IsFaulty α "stop" attributes := by
  rintro (⟨field, needed, absent⟩ | ⟨field, text, error, timed, found, rejected⟩ | ⟨-, absent⟩)
  · simp only [required, List.mem_cons, List.not_mem_nil, or_false] at needed
    subst needed
    simpa [absent] using described.facility
  · simp only [times, List.mem_cons, List.not_mem_nil, or_false] at timed
    rcases timed with rfl | rfl
    · cases known : stop.offsets.knownArrival? <;>
        simpa [found, rejected, known] using described.arrival
    · cases known : stop.offsets.knownDeparture? <;>
        simpa [found, rejected, known] using described.departure
  · have noArrival := described.arrival
    have noDeparture := described.departure
    rw [absent "arrivalOffset" (by simp [times]), Option.map_none, eq_comm,
      Option.map_eq_none_iff] at noArrival
    rw [absent "departureOffset" (by simp [times]), Option.map_none, eq_comm,
      Option.map_eq_none_iff] at noDeparture
    simpa [noArrival, noDeparture] using described.timed

theorem IsDepartureOf.not_isFaulty {departure : Departure α}
    (described : IsDepartureOf attributes departure) : ¬ IsFaulty α "departure" attributes := by
  rintro (⟨field, needed, absent⟩ | ⟨field, text, error, timed, found, rejected⟩ | ⟨stop, _⟩)
  · simp only [required, List.mem_cons, List.not_mem_nil, or_false] at needed
    rcases needed with rfl | rfl
    · simpa [absent] using described.id
    · simpa [absent] using described.time
  · simp only [times, List.mem_cons, List.not_mem_nil, or_false] at timed
    subst timed
    simpa [found, rejected] using described.time
  · simp at stop

namespace Draft

omit [Scalar α] [Clock.Arithmetic] in
theorem readFacility_eq_ok {draft next : Draft α}
    (read : draft.readFacility attributes = .ok next) :
    ∃ facility, IsFacilityOf attributes facility ∧
      next = { draft with timetable := draft.timetable.addFacility facility } := by
  rcases bind_eq_ok.mp read with ⟨xText, foundX, read⟩
  rcases bind_eq_ok.mp read with ⟨x, readX, read⟩
  rcases bind_eq_ok.mp read with ⟨yText, foundY, read⟩
  rcases bind_eq_ok.mp read with ⟨y, readY, read⟩
  rcases bind_eq_ok.mp read with ⟨id, foundId, read⟩
  cases read
  refine ⟨_, ⟨require_eq_ok.mp foundId, ?_, ?_, rfl⟩, rfl⟩
  · rw [require_eq_ok.mp foundX, Option.map_some, readX]
  · rw [require_eq_ok.mp foundY, Option.map_some, readY]

theorem readOffset_eq_ok {name : String} {offset : Option α} :
    readOffset attributes name = .ok offset ↔
      (attribute? attributes name).map Clock.read = offset.map .ok := by
  unfold readOffset
  cases attribute? attributes name with
  | none => cases offset <;> simp
  | some text =>
      cases read : (Clock.read text : Except Error α) with
      | error error => cases offset <;> simp [Except.map, read]
      | ok time => cases offset <;> simp [Except.map, read]

theorem readStop_eq_ok {stop : Stop α} (read : readStop attributes = .ok stop) :
    IsStopOf attributes stop := by
  rcases bind_eq_ok.mp read with ⟨arrival, readArrival, read⟩
  rcases bind_eq_ok.mp read with ⟨departure, readDeparture, read⟩
  rcases bind_eq_ok.mp read with ⟨facility, foundFacility, read⟩
  unfold Stop.make at read
  split at read
  · rename_i offsets known
    cases read
    rcases Offsets.ofKnown?_eq_some.mp known with ⟨rfl, rfl⟩
    exact ⟨require_eq_ok.mp foundFacility, readOffset_eq_ok.mp readArrival,
      readOffset_eq_ok.mp readDeparture, offsets.isSome_knownArrival?_or⟩
  · cases read

theorem readDeparture_eq_ok {departure : Departure α}
    (read : readDeparture attributes = .ok departure) : IsDepartureOf attributes departure := by
  rcases bind_eq_ok.mp read with ⟨id, foundId, read⟩
  rcases bind_eq_ok.mp read with ⟨text, foundText, read⟩
  rcases bind_eq_ok.mp read with ⟨time, readTime, read⟩
  cases read
  refine ⟨require_eq_ok.mp foundId, ?_, rfl⟩
  rw [require_eq_ok.mp foundText, Option.map_some, readTime]

/-! ## Steps of reading -/

/-- An event that is passed over. -/
def IsPlain : Event → Prop
  | .elementStart name _ => name ∉ kinds
  | .elementEnd name => name ≠ "transitRoute"
  | .characters _ | .other => True
  | .documentEnd | .malformed => False

/-- One step of reading: a draft, the events that are taken, and the next draft. -/
inductive Step : Draft α → List Event → Draft α → Prop
  | facility {draft attributes facility} (described : IsFacilityOf attributes facility) :
    Step draft [.elementStart "stopFacility" attributes]
      { draft with timetable := draft.timetable.addFacility facility }
  | line {draft attributes id} (found : attribute? attributes "id" = some id) :
    Step draft [.elementStart "transitLine" attributes] { draft with line := id }
  | route {draft attributes id} (found : attribute? attributes "id" = some id) :
    Step draft [.elementStart "transitRoute" attributes]
      { draft with route := some (Route.bare draft.line id "") }
  | stop {draft attributes route stop} (reading : draft.route = some route)
    (described : IsStopOf attributes stop) :
    Step draft [.elementStart "stop" attributes]
      { draft with route := some (route.addStop stop) }
  | departure {draft attributes route departure} (reading : draft.route = some route)
    (described : IsDepartureOf attributes departure) :
    Step draft [.elementStart "departure" attributes]
      { draft with route := some (route.addDeparture departure) }
  | mode {draft attributes text} :
    Step draft [.elementStart "transportMode" attributes, .characters text] (draft.setMode text)
  | close {draft route} (reading : draft.route = some route)
    (resolved : draft.timetable.unknownFacility? route = none) :
    Step draft [.elementEnd "transitRoute"]
      { draft with timetable := draft.timetable.addRouteUnchecked route, route := none }
  /-- Outside routes, stops and departures do not count and there is nothing to complete. -/
  | outside {draft event} (reading : draft.route = none)
    (counted : (∃ name ∈ ["stop", "departure"], ∃ attributes,
      event = .elementStart name attributes) ∨ event = .elementEnd "transitRoute") :
    Step draft [event] draft
  | plain {draft event} (plain : IsPlain event) : Step draft [event] draft

variable {draft next : Draft α}

omit [Scalar α] [Numeric α] [Clock.Arithmetic] in
theorem changeRoute_eq_ok {change : Route α → Except Error (Route α)}
    (changed : draft.changeRoute change = .ok next) :
    (draft.route = none ∧ next = draft) ∨
      ∃ route result, draft.route = some route ∧ change route = .ok result ∧
        next = { draft with route := some result } := by
  unfold changeRoute at changed
  split at changed
  · rename_i route reading
    rcases bind_eq_ok.mp changed with ⟨result, made, changed⟩
    cases changed
    exact .inr ⟨route, result, reading, made, rfl⟩
  · rename_i reading
    cases changed
    exact .inl ⟨reading, rfl⟩

theorem step_of_readElement {name : String} (other : name ≠ "transportMode")
    (read : draft.readElement name attributes = .ok next) :
    Step draft [.elementStart name attributes] next := by
  unfold readElement at read
  split at read
  · rcases readFacility_eq_ok read with ⟨facility, described, rfl⟩
    exact .facility described
  · rcases bind_eq_ok.mp read with ⟨id, found, read⟩
    cases read
    exact .line (require_eq_ok.mp found)
  · rcases bind_eq_ok.mp read with ⟨id, found, read⟩
    cases read
    exact .route (require_eq_ok.mp found)
  · rcases changeRoute_eq_ok read with ⟨reading, rfl⟩ | ⟨route, _, reading, made, rfl⟩
    · exact .outside reading (.inl ⟨"stop", by simp, attributes, rfl⟩)
    · rcases bind_eq_ok.mp made with ⟨stop, readStop, made⟩
      cases made
      exact .stop reading (readStop_eq_ok readStop)
  · rcases changeRoute_eq_ok read with ⟨reading, rfl⟩ | ⟨route, _, reading, made, rfl⟩
    · exact .outside reading (.inl ⟨"departure", by simp, attributes, rfl⟩)
    · rcases bind_eq_ok.mp made with ⟨departure, readDeparture, made⟩
      cases made
      exact .departure reading (readDeparture_eq_ok readDeparture)
  · cases read
    exact .plain (by simp_all [IsPlain, kinds])

theorem step_of_endElement {name : String} (read : draft.endElement name = .ok next) :
    Step draft [.elementEnd name] next := by
  by_cases ends : name = "transitRoute"
  · subst ends
    cases reading : draft.route with
    | none =>
        simp only [endElement, reading] at read
        cases read
        exact .outside reading (.inr rfl)
    | some route =>
        simp only [endElement, reading] at read
        rcases bind_eq_ok.mp read with ⟨timetable, added, read⟩
        cases read
        unfold addRoute at added
        split at added
        · cases added
        · rename_i resolved
          cases added
          exact .close reading resolved
  · unfold endElement at read
    split at read
    · exact (ends rfl).elim
    · cases read
      exact .plain ends

/-- No step takes an element with a fault that starts a route or is inside of one. -/
theorem Step.not_isFaulty {name : String} (inside : draft.route ≠ none ∨ name = "transitRoute")
    (step : Step draft [.elementStart name attributes] next) : ¬ IsFaulty α name attributes := by
  cases step with
  | facility described => exact described.not_isFaulty
  | line found => exact not_isFaulty_of_untimed rfl (by simp) (by simp [required, found])
  | route found => exact not_isFaulty_of_untimed rfl (by simp) (by simp [required, found])
  | stop _ described => exact described.not_isFaulty
  | departure _ described => exact described.not_isFaulty
  | outside outside counted =>
      rcases inside with inside | rfl
      · exact (inside outside).elim
      · simp at counted
  | plain other => exact not_isFaulty_of_not_mem other

end Draft

end JourneyTimes.Timetable
