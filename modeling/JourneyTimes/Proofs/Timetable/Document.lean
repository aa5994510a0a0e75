import JourneyTimes.Numeral.Shortest
import JourneyTimes.Proofs.Timetable.Elements
import JourneyTimes.Scalar.Double
import Mathlib

/-!
# Reading a timetable loses and mixes up nothing

The routes of a timetable that is read are those whose elements close in the document, in the
order in which they do.  Each has the stops and the departures of its own element, the line
that began last in front of it and the last mode that is given inside of it, and stops only at
facilities that came before its end.

What has been read of a document tells this of the events so far.  The first step tells it of
no events at all, and every step keeps it.
-/

namespace JourneyTimes.Timetable

open JourneyTimes.Markup (Attribute Event attribute?)
open Element

section Reading

variable {α : Type} [Scalar α] [Numeric α] [Clock.Arithmetic]

/-! ## Routes in documents -/

/-- The events of a document up to its end. -/
def upToEnd (events : List Event) : List Event :=
  events.takeWhile (· != .documentEnd)

/-- Whether the element of a route starts or ends. -/
def isRouteTag : Event → Bool
  | .elementStart name _ | .elementEnd name => name == "transitRoute"
  | _ => false

/-- No route starts inside of another one: of those places where routes start or end, no two
neighbours are starts. -/
def IsUnnested (events : List Event) : Prop :=
  (events.filter isRouteTag).IsChain fun tag next =>
    (tag.start? "transitRoute").isNone ∨ (next.start? "transitRoute").isNone

instance (events : List Event) : Decidable (IsUnnested events) :=
  inferInstanceAs (Decidable (List.IsChain _ _))

/-- The element of a route: what stands in front of it, its attributes, and what stands
between its start and its end. -/
@[ext]
structure RouteElement where
  before : List Event
  attributes : List Attribute
  content : List Event

namespace RouteElement

/-- The events in front of the end of a route. -/
def opening (element : RouteElement) : List Event :=
  element.before ++ .elementStart "transitRoute" element.attributes :: element.content

/-- The events up to the end of a route, which is the last of them. -/
def events (element : RouteElement) : List Event :=
  element.opening ++ [.elementEnd "transitRoute"]

/-- A route closes in a document: its end is the first one of a route after its start. -/
def IsClosedIn (element : RouteElement) (events : List Event) : Prop :=
  element.events <+: events ∧ .elementEnd "transitRoute" ∉ element.content

end RouteElement

/-- A route has started and not ended. -/
def IsOpen (events : List Event) : Prop :=
  ∃ element : RouteElement, element.opening = events ∧
    .elementEnd "transitRoute" ∉ element.content

/-- The id of the line that started last. -/
def lineOf (events : List Event) : String :=
  ((events.filterMap (Event.start? "transitLine")).getLast?.bind (attribute? · "id")).getD ""

/-- A mode is the last one that is given, without blanks around it.  It is empty if none is. -/
inductive IsMode : List Event → String → Prop
  | none {content} (never : ∀ attributes, .elementStart "transportMode" attributes ∉ content) :
    IsMode content ""
  | last {before attributes text after}
    (never : ∀ attributes, .elementStart "transportMode" attributes ∉ after) :
    IsMode (before ++ .elementStart "transportMode" attributes :: .characters text :: after)
      (Text.trim text)

/-- There is the element of a facility. -/
def IsDefined (events : List Event) (facility : String) : Prop :=
  ∃ attributes, .elementStart "stopFacility" attributes ∈ events ∧
    attribute? attributes "id" = some facility

/-- An element describes a route. -/
structure RouteElement.Describes (element : RouteElement) (route : Route α) : Prop where
  line : route.line = lineOf element.before
  id : attribute? element.attributes "id" = some route.id
  mode : IsMode element.content route.mode
  stops : List.Forall₂ IsStopOf (element.content.filterMap (Event.start? "stop")) route.stops
  departures : List.Forall₂ IsDepartureOf
    (element.content.filterMap (Event.start? "departure")) route.departures

/-- What a route that has been read comes from: the element describes the route, and all of
its facilities stand in front of its end. -/
def RouteElement.Gives (element : RouteElement) (route : Route α) : Prop :=
  element.Describes route ∧ ∀ stop ∈ route.stops, IsDefined element.opening stop.facility

/-- Some routes are exactly those of the elements that pass a check, in order: a route is
complete before the next one starts. -/
def AreRoutesOf (routes : List (Route α)) (check : RouteElement → Prop) : Prop :=
  ∃ elements : List RouteElement,
    (∀ element, element ∈ elements ↔ check element) ∧
    elements.Pairwise (fun earlier later => earlier.events <+: later.before) ∧
    List.Forall₂ RouteElement.Gives elements routes

variable (α) in
/-- What can be wrong with the routes of a document: an element that is inside of a route, or
starts it, has a fault, or a route closes that stops at a facility which has not come yet. -/
inductive HasFault (events : List Event) : Prop
  | element (before : List Event) (name : String) (attributes : List Attribute)
    (found : before ++ [.elementStart name attributes] <+: events)
    (inside : IsOpen before ∨ name = "transitRoute")
    (faulty : IsFaulty α name attributes)
  | unresolved (element : RouteElement) (attributes : List Attribute) (facility : String)
    (closed : element.IsClosedIn events)
    (unnested : ∀ inner, .elementStart "transitRoute" inner ∉ element.content)
    (stop : .elementStart "stop" attributes ∈ element.content)
    (refers : attribute? attributes "refId" = some facility)
    (undefined : ¬ IsDefined element.opening facility)

/-! ## More events -/

section More

omit [Clock.Arithmetic]

variable {events more before content : List Event} {last event : Event} {facility mode : String}

/-- What ends with something that is not added later has been there before. -/
theorem prefix_append_iff (absent : last ∉ more) :
    before ++ [last] <+: events ++ more ↔ before ++ [last] <+: events := by
  refine ⟨?_, List.prefix_append_of_prefix⟩
  rintro ⟨rest, split⟩
  rcases List.append_eq_append_iff.mp split with ⟨middle, rfl, -⟩ | ⟨middle, same, rfl⟩
  · exact List.prefix_append _ _
  · rcases List.eq_nil_or_concat' middle with rfl | ⟨middle, final, rfl⟩
    · rw [List.append_nil] at same
      exact same ▸ List.prefix_rfl
    · rw [← List.append_assoc] at same
      have final : last = final := by simpa using (List.append_inj' same rfl).2
      exact (absent (by simp [final])).elim

theorem IsOpen.of_append (opened : IsOpen (events ++ more))
    (noStart : ∀ attributes, .elementStart "transitRoute" attributes ∉ more) : IsOpen events := by
  rcases opened with ⟨⟨before, attributes, content⟩, split, noEnd⟩
  rcases List.append_eq_append_iff.mp split with ⟨middle, rfl, inside⟩ | ⟨middle, -, rfl⟩
  · cases middle with
    | nil =>
        rw [List.nil_append] at inside
        exact (noStart attributes (inside ▸ List.mem_cons_self)).elim
    | cons start middle =>
        rcases List.cons_eq_cons.mp inside with ⟨rfl, rfl⟩
        exact ⟨⟨before, attributes, middle⟩, rfl,
          fun member => noEnd (List.mem_append_left _ member)⟩
  · exact (noStart attributes (by simp)).elim

theorem not_isOpen_nil : ¬ IsOpen [] := by
  rintro ⟨element, split, -⟩
  simp [RouteElement.opening] at split

theorem not_isOpen_end : ¬ IsOpen (events ++ [.elementEnd "transitRoute"]) := by
  rintro ⟨⟨before, attributes, content⟩, split, noEnd⟩
  rcases List.eq_nil_or_concat' content with rfl | ⟨content, final, rfl⟩
  · have same := (List.append_inj' split rfl).2
    simp at same
  · have same : before ++ .elementStart "transitRoute" attributes :: content ++ [final] =
        events ++ [.elementEnd "transitRoute"] := by
      simpa [RouteElement.opening] using split
    have final : final = .elementEnd "transitRoute" := by
      simpa using (List.append_inj' same rfl).2
    exact noEnd (by simp [final])

theorem lineOf_append (noLine : more.filterMap (Event.start? "transitLine") = []) :
    lineOf (events ++ more) = lineOf events := by
  rw [lineOf, List.filterMap_append, noLine, List.append_nil, lineOf]

theorem IsDefined.append (defined : IsDefined events facility) :
    IsDefined (events ++ more) facility := by
  rcases defined with ⟨attributes, member, found⟩
  exact ⟨attributes, List.mem_append_left _ member, found⟩

theorem IsMode.append (given : IsMode content mode)
    (never : ∀ attributes, .elementStart "transportMode" attributes ∉ more) :
    IsMode (content ++ more) mode := by
  cases given with
  | none before => exact .none fun attributes => by simp [before attributes, never attributes]
  | last after =>
      rw [List.append_assoc, List.cons_append, List.cons_append]
      exact .last fun attributes => by simp [after attributes, never attributes]

end More

/-! ## The route that is being read -/

namespace RouteElement

variable {element other : RouteElement} {route : Route α} {attributes : List Attribute}

section Bare

omit [Clock.Arithmetic]

theorem eq_end_of_isRouteTag {tag : Event} (isTag : isRouteTag tag = true)
    (noStart : tag.start? "transitRoute" = none) : tag = .elementEnd "transitRoute" := by
  cases tag <;> simp_all [isRouteTag, Event.start?]

/-- Nothing in a route starts or ends another one. -/
def IsBare (element : RouteElement) : Prop :=
  element.content.filter isRouteTag = []

/-- A route is completed in a document.  Of nested routes this is the innermost one. -/
def IsCompleteIn (element : RouteElement) (events : List Event) : Prop :=
  element.events <+: events ∧ element.IsBare

/-- More of a route. -/
def append (element : RouteElement) (more : List Event) : RouteElement :=
  { element with content := element.content ++ more }

theorem opening_append (more : List Event) :
    (element.append more).opening = element.opening ++ more := by
  simp [append, opening]

theorem IsBare.append (bare : element.IsBare) {more : List Event}
    (quiet : more.filter isRouteTag = []) : (element.append more).IsBare := by
  rw [IsBare, RouteElement.append, List.filter_append, bare, quiet, List.append_nil]

theorem IsBare.not_mem_end (bare : element.IsBare) :
    .elementEnd "transitRoute" ∉ element.content :=
  fun member => List.filter_eq_nil_iff.mp bare _ member rfl

theorem IsBare.not_mem_start (bare : element.IsBare) (attributes : List Attribute) :
    .elementStart "transitRoute" attributes ∉ element.content :=
  fun member => List.filter_eq_nil_iff.mp bare _ member rfl

theorem isBare_of_not_mem (noEnd : .elementEnd "transitRoute" ∉ element.content)
    (noStart : ∀ attributes, .elementStart "transitRoute" attributes ∉ element.content) :
    element.IsBare := by
  refine List.filter_eq_nil_iff.mpr fun event member isTag => ?_
  cases start : event.start? "transitRoute" with
  | none => exact noEnd (eq_end_of_isRouteTag isTag start ▸ member)
  | some attributes => exact noStart attributes (Event.start?_eq_some.mp start ▸ member)

/-- The route that is open is unique. -/
theorem IsBare.eq_of_opening_eq (bare : element.IsBare) (otherBare : other.IsBare)
    (same : element.opening = other.opening) : element = other := by
  rcases List.append_eq_append_iff.mp same with ⟨middle, before, rest⟩ | ⟨middle, before, rest⟩
  · cases middle with
    | nil =>
        simp only [List.nil_append, List.cons.injEq, Event.elementStart.injEq, true_and] at rest
        exact RouteElement.ext (by simpa using before.symm) rest.1 rest.2
    | cons start middle =>
        refine (bare.not_mem_start other.attributes ?_).elim
        simp [(List.cons_eq_cons.mp rest).2]
  · cases middle with
    | nil =>
        simp only [List.nil_append, List.cons.injEq, Event.elementStart.injEq, true_and] at rest
        exact RouteElement.ext (by simpa using before) rest.1.symm rest.2.symm
    | cons start middle =>
        refine (otherBare.not_mem_start element.attributes ?_).elim
        simp [(List.cons_eq_cons.mp rest).2]

/-- If no routes are nested then nothing in a route that is open starts another one. -/
theorem isBare_of_isUnnested (unnested : IsUnnested element.opening)
    (noEnd : .elementEnd "transitRoute" ∉ element.content) : element.IsBare := by
  rw [IsBare]
  cases tags : element.content.filter isRouteTag with
  | nil => rfl
  | cons tag others =>
      have found : tag ∈ element.content ∧ isRouteTag tag = true := by
        rw [← List.mem_filter, tags]
        exact List.mem_cons_self
      rw [IsUnnested, opening, List.filter_append, List.filter_cons_of_pos rfl, tags,
        List.isChain_append_cons_cons] at unnested
      have noStart : tag.start? "transitRoute" = none := by
        simpa [Event.start?] using unnested.2.1
      exact (noEnd (eq_end_of_isRouteTag found.2 noStart ▸ found.1)).elim

/-- The elements with a name that a route consists of, if there are no more of them. -/
theorem starts_append {more : List Event} {name : String}
    (noMore : ∀ event ∈ more, event.start? name = none) :
    (element.append more).content.filterMap (Event.start? name) =
      element.content.filterMap (Event.start? name) := by
  rw [append, List.filterMap_append, List.filterMap_eq_nil_iff.mpr noMore, List.append_nil]

end Bare

namespace Describes

theorem begin (before : List Event) {id : String} (found : attribute? attributes "id" = some id) :
    Describes ⟨before, attributes, []⟩ (Route.bare (lineOf before) id "" : Route α) :=
  ⟨rfl, found, .none (by simp), .nil, .nil⟩

variable (described : element.Describes route)
include described

theorem addStop {stop : Stop α} (stopDescribed : IsStopOf attributes stop) :
    (element.append [.elementStart "stop" attributes]).Describes (route.addStop stop) where
  line := described.line
  id := described.id
  mode := described.mode.append (by simp)
  stops := by
    rw [append, List.filterMap_append]
    exact List.rel_append described.stops (.cons stopDescribed .nil)
  departures := by
    rw [starts_append (by simp [Event.start?])]
    exact described.departures

theorem addDeparture {departure : Departure α}
    (departureDescribed : IsDepartureOf attributes departure) :
    (element.append [.elementStart "departure" attributes]).Describes
      (route.addDeparture departure) where
  line := described.line
  id := described.id
  mode := described.mode.append (by simp)
  stops := by
    rw [starts_append (by simp [Event.start?])]
    exact described.stops
  departures := by
    rw [append, List.filterMap_append]
    exact List.rel_append described.departures (.cons departureDescribed .nil)

theorem setMode (text : String) :
    (element.append [.elementStart "transportMode" attributes, .characters text]).Describes
      { route with mode := Text.trim text } where
  line := described.line
  id := described.id
  mode := .last (by simp)
  stops := by
    rw [starts_append (by simp [Event.start?])]
    exact described.stops
  departures := by
    rw [starts_append (by simp [Event.start?])]
    exact described.departures

/-- Events that are neither stops nor departures nor modes say nothing about a route. -/
theorem pass {event : Event} (noStop : event.start? "stop" = none)
    (noDeparture : event.start? "departure" = none)
    (noMode : event.start? "transportMode" = none) : (element.append [event]).Describes route where
  line := described.line
  id := described.id
  mode := by
    refine described.mode.append fun attributes member => ?_
    rw [List.mem_singleton] at member
    simp [← member, Event.start?] at noMode
  stops := by
    rw [starts_append (by simpa using noStop)]
    exact described.stops
  departures := by
    rw [starts_append (by simpa using noDeparture)]
    exact described.departures

end Describes

end RouteElement

/-! ## The routes that are complete -/

namespace AreRoutesOf

variable {routes : List (Route α)} {events more : List Event}

theorem congr {check other : RouteElement → Prop} (areRoutes : AreRoutesOf routes check)
    (same : ∀ element, check element ↔ other element) : AreRoutesOf routes other := by
  rcases areRoutes with ⟨elements, each, ordered, given⟩
  exact ⟨elements, fun element => (each element).trans (same element), ordered, given⟩

theorem nil : AreRoutesOf ([] : List (Route α)) fun element => element.IsCompleteIn [] := by
  refine ⟨[], fun element => ⟨nofun, fun found => ?_⟩, .nil, .nil⟩
  simpa [RouteElement.events] using List.prefix_nil.mp found.1

/-- No route is completed where none ends. -/
theorem append (areRoutes : AreRoutesOf routes fun element => element.IsCompleteIn events)
    (noEnd : .elementEnd "transitRoute" ∉ more) :
    AreRoutesOf routes fun element => element.IsCompleteIn (events ++ more) :=
  areRoutes.congr fun _ => and_congr_left fun _ => (prefix_append_iff noEnd).symm

/-- An end where no route is open completes none. -/
theorem outside (areRoutes : AreRoutesOf routes fun element => element.IsCompleteIn events)
    (notOpen : ¬ IsOpen events) :
    AreRoutesOf routes fun element =>
      element.IsCompleteIn (events ++ [.elementEnd "transitRoute"]) := by
  refine areRoutes.congr fun element => and_congr_left fun bare => ?_
  rw [List.prefix_concat_iff, or_iff_right]
  exact fun whole => notOpen ⟨element, List.append_cancel_right whole, bare.not_mem_end⟩

/-- The end of the route that is open completes it, after all that have been completed. -/
theorem close {element : RouteElement} {route : Route α}
    (areRoutes : AreRoutesOf routes fun other => other.IsCompleteIn element.opening)
    (bare : element.IsBare) (gives : element.Gives route) :
    AreRoutesOf (routes ++ [route]) fun other => other.IsCompleteIn element.events := by
  rcases areRoutes with ⟨elements, each, ordered, given⟩
  refine ⟨elements ++ [element], fun other => ?_, ?_, List.rel_append given (.cons gives .nil)⟩
  · have longer : other.events <+: element.events ↔
        other.opening = element.opening ∨ other.events <+: element.opening := by
      rw [RouteElement.events, RouteElement.events, List.prefix_concat_iff, List.append_left_inj]
    rw [List.mem_append, each, List.mem_singleton]
    constructor
    · rintro (⟨found, otherBare⟩ | rfl)
      · exact ⟨longer.mpr (.inr found), otherBare⟩
      · exact ⟨List.prefix_rfl, bare⟩
    · rintro ⟨found, otherBare⟩
      rcases longer.mp found with same | found
      · exact .inr (otherBare.eq_of_opening_eq bare same)
      · exact .inl ⟨found, otherBare⟩
  · refine List.pairwise_append.mpr ⟨ordered, List.pairwise_singleton .., ?_⟩
    intro earlier member later latest
    rw [List.mem_singleton.mp latest]
    have found := ((each earlier).mp member).1
    exact (prefix_append_iff (by simpa using bare.not_mem_end)).mp found

end AreRoutesOf

/-! ## What a draft tells -/

namespace Draft

omit [Scalar α] [Numeric α] [Clock.Arithmetic] in
theorem unknownFacility?_eq_none {timetable : Timetable α} {route : Route α} :
    timetable.unknownFacility? route = none ↔
      ∀ stop ∈ route.stops, stop.facility ∈ timetable.facilities := by
  simp [unknownFacility?]

/-- What a draft tells of the events that have been taken in. -/
structure Tells (draft : Draft α) (events : List Event) : Prop where
  line : draft.line = lineOf events
  defined : ∀ id ∈ draft.timetable.facilities, IsDefined events id
  reading : ∀ route, draft.route = some route →
    ∃ element : RouteElement, element.opening = events ∧ element.IsBare ∧ element.Describes route
  idle : draft.route = none → ¬ IsOpen events
  completed : AreRoutesOf draft.timetable.routes.toList fun element =>
    element.IsCompleteIn events

theorem Tells.empty : Tells (empty : Draft α) [] where
  line := rfl
  defined := by simp [Draft.empty, Timetable.empty]
  reading := nofun
  idle _ := not_isOpen_nil
  completed := .nil

section Steps

variable {draft next : Draft α} {events more : List Event} {event : Event}

/-- Where no route starts or ends, the route that is being read goes on if there is one. -/
theorem Tells.goOn (tells : draft.Tells events) (noTag : more.filter isRouteTag = [])
    (line : next.line = lineOf (events ++ more))
    (defined : ∀ id ∈ next.timetable.facilities, IsDefined (events ++ more) id)
    (routes : next.timetable.routes = draft.timetable.routes)
    (idle : next.route = none → draft.route = none)
    (reading : ∀ longer, next.route = some longer → ∃ route, draft.route = some route ∧
      ∀ element : RouteElement, element.Describes route →
        (element.append more).Describes longer) : next.Tells (events ++ more) where
  line := line
  defined := defined
  reading longer found := by
    rcases reading longer found with ⟨route, before, describes⟩
    rcases tells.reading route before with ⟨element, rfl, bare, described⟩
    exact ⟨element.append more, element.opening_append more, bare.append noTag,
      describes element described⟩
  idle outside opened :=
    tells.idle (idle outside)
      (opened.of_append fun _ member => List.filter_eq_nil_iff.mp noTag _ member rfl)
  completed := by
    rw [routes]
    exact tells.completed.append fun member => List.filter_eq_nil_iff.mp noTag _ member rfl

/-- An event that says nothing about a route. -/
theorem Tells.pass (tells : draft.Tells events) (noTag : isRouteTag event = false)
    (noLine : event.start? "transitLine" = none)
    (silent : draft.route = none ∨ event.start? "stop" = none ∧
      event.start? "departure" = none ∧ event.start? "transportMode" = none) :
    draft.Tells (events ++ [event]) := by
  refine tells.goOn (by simp [noTag]) ?_ (fun id known => (tells.defined id known).append) rfl
    id fun route reading => ⟨route, reading, fun element described => ?_⟩
  · rw [lineOf_append (by simp [noLine]), tells.line]
  · rcases silent with outside | ⟨noStop, noDeparture, noMode⟩
    · rw [outside] at reading
      cases reading
    · exact described.pass noStop noDeparture noMode

theorem Tells.addFacility (tells : draft.Tells events) {attributes : List Attribute}
    {facility : Facility α} (described : IsFacilityOf attributes facility) :
    Tells { draft with timetable := draft.timetable.addFacility facility }
      (events ++ [.elementStart "stopFacility" attributes]) := by
  have passed : draft.Tells (events ++ [.elementStart "stopFacility" attributes]) :=
    tells.pass rfl rfl (.inr ⟨rfl, rfl, rfl⟩)
  refine { passed with defined := fun id known => ?_ }
  rcases Std.HashMap.mem_insert.mp known with same | known
  · exact ⟨attributes, List.mem_append_right _ List.mem_cons_self,
      eq_of_beq same ▸ described.id⟩
  · exact passed.defined id known

theorem Tells.startLine (tells : draft.Tells events) {attributes : List Attribute} {id : String}
    (found : attribute? attributes "id" = some id) :
    Tells { draft with line := id } (events ++ [.elementStart "transitLine" attributes]) := by
  refine tells.goOn rfl ?_ (fun id known => (tells.defined id known).append) rfl (fun same => same)
    fun route reading => ⟨route, reading, fun element described => described.pass rfl rfl rfl⟩
  simp [lineOf, Event.start?, found]

theorem Tells.startRoute (tells : draft.Tells events) {attributes : List Attribute} {id : String}
    (found : attribute? attributes "id" = some id) :
    Tells { draft with route := some (Route.bare draft.line id "") }
      (events ++ [.elementStart "transitRoute" attributes]) where
  line := by rw [lineOf_append rfl, tells.line]
  defined id known := (tells.defined id known).append
  reading route started := by
    cases started
    rw [tells.line]
    exact ⟨⟨events, attributes, []⟩, rfl, rfl, .begin events found⟩
  idle := nofun
  completed := tells.completed.append (by simp)

/-- The route that is being read changes with its element. -/
theorem Tells.change (tells : draft.Tells events) {route longer : Route α}
    (reading : draft.route = some route) (noTag : more.filter isRouteTag = [])
    (noLine : more.filterMap (Event.start? "transitLine") = [])
    (describes : ∀ element : RouteElement, element.Describes route →
      (element.append more).Describes longer) :
    Tells { draft with route := some longer } (events ++ more) := by
  refine tells.goOn noTag ?_ (fun id known => (tells.defined id known).append) rfl nofun
    fun other changed => ⟨route, reading, ?_⟩
  · rw [lineOf_append noLine, tells.line]
  · cases changed
    exact describes

theorem Tells.endRoute (tells : draft.Tells events) {route : Route α}
    (reading : draft.route = some route)
    (resolved : draft.timetable.unknownFacility? route = none) :
    Tells { draft with timetable := draft.timetable.addRouteUnchecked route, route := none }
      (events ++ [.elementEnd "transitRoute"]) where
  line := by rw [lineOf_append rfl, tells.line]
  defined id known := (tells.defined id known).append
  reading := nofun
  idle _ := not_isOpen_end
  completed := by
    rcases tells.reading route reading with ⟨element, rfl, bare, described⟩
    rw [addRouteUnchecked, Array.toList_push]
    exact tells.completed.close bare ⟨described, fun stop member =>
      tells.defined _ (unknownFacility?_eq_none.mp resolved stop member)⟩

/-- The text of a mode counts if a route is being read. -/
theorem Tells.setMode (tells : draft.Tells events) {attributes : List Attribute} (text : String) :
    (draft.setMode text).Tells
      (events ++ [.elementStart "transportMode" attributes, .characters text]) := by
  refine tells.goOn rfl ?_ (fun id known => (tells.defined id known).append) rfl
    Option.map_eq_none_iff.mp fun longer changed => ?_
  · rw [lineOf_append rfl]
    exact tells.line
  · rcases Option.map_eq_some_iff.mp changed with ⟨route, reading, rfl⟩
    exact ⟨route, reading, fun _ described => described.setMode text⟩

/-- Where no route is open, the end of a route ends nothing. -/
theorem Tells.endNothing (tells : draft.Tells events) (outside : draft.route = none) :
    draft.Tells (events ++ [.elementEnd "transitRoute"]) where
  line := by rw [lineOf_append rfl, tells.line]
  defined id known := (tells.defined id known).append
  reading route found := by
    rw [outside] at found
    cases found
  idle _ := not_isOpen_end
  completed := tells.completed.outside (tells.idle outside)

omit [Clock.Arithmetic] in
theorem isRouteTag_of_isPlain (plain : IsPlain event) : isRouteTag event = false := by
  cases event <;> simp_all [IsPlain, isRouteTag, kinds]

omit [Clock.Arithmetic] in
theorem start?_of_isPlain (plain : IsPlain event) {name : String} (counted : name ∈ kinds) :
    event.start? name = none := by
  cases start : event.start? name with
  | none => rfl
  | some attributes =>
      rw [Event.start?_eq_some.mp start] at plain
      exact (plain counted).elim

/-- Whatever step is taken, the draft goes on telling of the events. -/
theorem Tells.step (tells : draft.Tells events) (step : Step draft more next) :
    next.Tells (events ++ more) := by
  cases step with
  | facility described => exact tells.addFacility described
  | line found => exact tells.startLine found
  | route found => exact tells.startRoute found
  | stop reading described =>
      exact tells.change reading rfl rfl fun _ before => before.addStop described
  | departure reading described =>
      exact tells.change reading rfl rfl fun _ before => before.addDeparture described
  | mode => exact tells.setMode _
  | close reading resolved => exact tells.endRoute reading resolved
  | outside reading counted =>
      rcases counted with ⟨name, counted, attributes, rfl⟩ | rfl
      · simp only [List.mem_cons, List.not_mem_nil, or_false] at counted
        rcases counted with rfl | rfl <;> exact tells.pass rfl rfl (.inl reading)
      · exact tells.endNothing reading
  | plain plain =>
      exact tells.pass (isRouteTag_of_isPlain plain) (start?_of_isPlain plain (by simp [kinds]))
        (.inr ⟨start?_of_isPlain plain (by simp [kinds]),
          start?_of_isPlain plain (by simp [kinds]), start?_of_isPlain plain (by simp [kinds])⟩)

end Steps

/-! ## Whole documents -/

/-- A draft is what some events from the beginning of a document are taken in as. -/
inductive Takes : List Event → Draft α → Prop
  | nothing : Takes [] empty
  | step {events more draft next} (taken : Takes events draft) (step : Step draft more next) :
    Takes (events ++ more) next

theorem Takes.tells {events : List Event} {draft : Draft α} (takes : Takes events draft) :
    draft.Tells events := by
  induction takes with
  | nothing => exact .empty
  | step _ step ih => exact ih.step step

/-- Reading takes in all events up to the end of the document. -/
theorem Takes.readEvents {earlier events : List Event} {draft result : Draft α}
    (takes : Takes earlier draft) (read : draft.readEvents events = .ok result) :
    Takes (earlier ++ upToEnd events) result := by
  fun_induction Draft.readEvents draft events generalizing earlier with
  | case1 draft rest =>
      cases read
      simpa [upToEnd] using takes
  | case2 draft attributes text rest ih =>
      simpa [upToEnd] using ih (takes.step .mode) read
  | case3 | case4 => cases read
  | case5 draft name attributes rest _ _ other ih =>
      rcases bind_eq_ok.mp read with ⟨next, element, read⟩
      simpa [upToEnd] using ih next (takes.step (step_of_readElement other element)) read
  | case6 draft name rest ih =>
      rcases bind_eq_ok.mp read with ⟨next, element, read⟩
      simpa [upToEnd] using ih next (takes.step (step_of_endElement element)) read
  | case7 draft text rest ih =>
      have plain : IsPlain (.characters text) := trivial
      simpa [upToEnd] using ih (takes.step (.plain plain)) read
  | case8 draft rest ih =>
      have plain : IsPlain .other := trivial
      simpa [upToEnd] using ih (takes.step (.plain plain)) read
  | case9 | case10 => cases read

/-- An event that is taken in by itself is taken in by a step from what stands before it. -/
theorem Takes.exists_step {events before : List Event} {event : Event} {draft : Draft α}
    (takes : Takes events draft) (found : before ++ [event] <+: events)
    (noMode : event.start? "transportMode" = none) (noText : ∀ text, event ≠ .characters text) :
    ∃ earlier later : Draft α, Takes before earlier ∧ Step earlier [event] later := by
  induction takes with
  | nothing => simp at found
  | @step events more earlier later taken step ih =>
      have single : ∀ last, more = [last] → ∃ earlier later : Draft α,
          Takes before earlier ∧ Step earlier [event] later := by
        rintro last rfl
        rcases List.prefix_concat_iff.mp found with whole | found
        · rcases List.append_inj' whole rfl with ⟨rfl, same⟩
          exact ⟨earlier, later, taken, same ▸ step⟩
        · exact ih found
      cases step with
      | @mode attributes text =>
          rw [List.append_cons events] at found
          rcases List.prefix_concat_iff.mp found with whole | found
          · exact (noText text (by simpa using (List.append_inj' whole rfl).2)).elim
          · rcases List.prefix_concat_iff.mp found with whole | found
            · have same : event = .elementStart "transportMode" attributes := by
                simpa using (List.append_inj' whole rfl).2
              rw [same] at noMode
              cases noMode
            · exact ih found
      | _ => exact single _ rfl

end Draft

/-- The timetable that the events of a document are read as. -/
def ofEvents (events : List Event) : Except Error (Timetable α) :=
  (Draft.readEvents Draft.empty events).map (·.timetable)

theorem ofDocument_eq (document : String) :
    (ofDocument document : Except Error (Timetable α)) = ofEvents (Markup.events document) :=
  rfl

section Results

variable {events : List Event} {draft : Draft α}

omit [Clock.Arithmetic] in
/-- If no routes are nested, those that have been completed are all that close at all. -/
theorem RouteElement.isCompleteIn_iff (unnested : IsUnnested events) (element : RouteElement) :
    element.IsCompleteIn events ↔ element.IsClosedIn events := by
  refine and_congr_right fun found => ⟨IsBare.not_mem_end, fun noEnd => ?_⟩
  have before : IsUnnested element.opening :=
    unnested.prefix (((List.prefix_append _ _).trans found).filter _)
  exact isBare_of_isUnnested before noEnd

/-- What has been taken in has no fault. -/
theorem Draft.Takes.not_hasFault (takes : Draft.Takes events draft) : ¬ HasFault α events := by
  rintro (⟨before, name, attributes, found, inside, faulty⟩ |
    ⟨element, attributes, facility, ⟨found, noEnd⟩, noStart, stop, refers, undefined⟩)
  · have noMode : name ≠ "transportMode" := by
      rintro rfl
      exact not_isFaulty_of_untimed rfl (by simp) (by simp [required]) faulty
    rcases takes.exists_step found (by simp [Event.start?, noMode]) (by simp) with
      ⟨earlier, later, taken, step⟩
    exact step.not_isFaulty (inside.imp_left fun opened idle => taken.tells.idle idle opened) faulty
  · rcases takes.exists_step found rfl (by simp) with ⟨earlier, later, taken, step⟩
    have opened : IsOpen element.opening := ⟨element, rfl, noEnd⟩
    cases step with
    | outside idle => exact taken.tells.idle idle opened
    | plain plain => exact plain rfl
    | close reading resolved =>
        rcases taken.tells.reading _ reading with ⟨other, same, bare, described⟩
        rw [bare.eq_of_opening_eq (element.isBare_of_not_mem noEnd noStart) same] at described
        have listed : attributes ∈ element.content.filterMap (Event.start? "stop") :=
          List.mem_filterMap.mpr ⟨_, stop, Event.start?_eq_some.mpr rfl⟩
        rcases exists_of_forall₂ described.stops.flip listed with ⟨stop, member, stopDescribed⟩
        have sameFacility : stop.facility = facility := by
          simpa [refers] using stopDescribed.facility.symm
        refine undefined (sameFacility ▸ taken.tells.defined _ ?_)
        exact Draft.unknownFacility?_eq_none.mp resolved stop member

end Results

/-- A day on which one line serves a stop and another line a second one.  What is said of the
stop of the first line is left open. -/
def serviceDay (stop : List Attribute) : List Event :=
  [.elementStart "stopFacility" [⟨"id", "A"⟩, ⟨"x", "0"⟩, ⟨"y", "0"⟩],
    .elementStart "transitLine" [⟨"id", "north"⟩],
    .elementStart "transitRoute" [⟨"id", "out"⟩],
    .elementStart "transportMode" [],
    .characters " bus ",
    .elementStart "stop" stop,
    .elementStart "departure" [⟨"id", "first"⟩, ⟨"departureTime", "0:0"⟩],
    .elementEnd "transitRoute",
    .elementStart "stopFacility" [⟨"id", "B"⟩, ⟨"x", "0"⟩, ⟨"y", "0"⟩],
    .elementStart "transitLine" [⟨"id", "south"⟩],
    .elementStart "transitRoute" [⟨"id", "back"⟩],
    .elementStart "stop" [⟨"refId", "B"⟩, ⟨"departureOffset", "0:0"⟩],
    .elementEnd "transitRoute",
    .documentEnd]

theorem read_midnight : (Clock.read "0:0" : Except Error α) = .ok (Scalar.ofNat 0) := by
  have fields : (Text.trim "0:0").splitOn ":" = ["0", "0"] := by cbv
  rw [Clock.read, fields]
  exact Clock.secondsOf_of_lt (by decide)

theorem ofEvents_serviceDay : ∃ timetable : Timetable Float,
    ofEvents (serviceDay [⟨"refId", "A"⟩, ⟨"arrivalOffset", "0:0"⟩]) = .ok timetable ∧
    timetable.routes.toList.map (fun route => (route.line, route.id, route.mode)) =
      [("north", "out", "bus"), ("south", "back", "")] := by
  have readZero : ∃ zero : Float, Markup.readNumber "0" = .ok zero := ⟨_, by cbv⟩
  have bus : Text.trim " bus " = "bus" := by decide +kernel
  rcases readZero with ⟨zero, readZero⟩
  simp [ofEvents, serviceDay, Draft.readEvents, Draft.empty, Timetable.empty, Except.map, bind,
    Except.bind, pure, Except.pure, Markup.require, attribute?, Draft.readElement,
    Draft.readFacility, readZero, addFacility, Draft.readLine, Draft.readRoute, Route.bare,
    Draft.setMode, bus, Draft.changeRoute, Draft.readStop, Draft.readOffset, read_midnight,
    Stop.make, Offsets.ofKnown?, Route.addStop, Draft.readDeparture, Route.addDeparture,
    Draft.endElement, addRoute, unknownFacility?, addRouteUnchecked]

/-- If no routes are nested in a document that can be read, the routes of the timetable are
exactly those that close in the document, in order.  Each is made of what its own element says,
of the id of the line that started last in front of it and of the last mode inside of it, and
all of its facilities come before its end.  If there is a fault in a route then nothing is
read. -/
theorem ofEvents_lossless (events : List Event) :
    (IsUnnested (upToEnd events) → ∀ timetable : Timetable α, ofEvents events = .ok timetable →
      AreRoutesOf timetable.routes.toList fun element =>
        element.IsClosedIn (upToEnd events)) ∧
    (HasFault α (upToEnd events) →
      ∃ error, (ofEvents events : Except Error (Timetable α)) = .error error) := by
  have taken : ∀ draft : Draft α, Draft.empty.readEvents events = .ok draft →
      Draft.Takes (upToEnd events) draft := fun draft read => by
    simpa using Draft.Takes.nothing.readEvents read
  unfold ofEvents
  cases read : (Draft.empty : Draft α).readEvents events with
  | error error => exact ⟨nofun, fun _ => ⟨error, rfl⟩⟩
  | ok draft =>
      refine ⟨?_, fun fault => ((taken draft read).not_hasFault fault).elim⟩
      rintro unnested _ ⟨⟩
      exact (taken draft read).tells.completed.congr (RouteElement.isCompleteIn_iff unnested)

end Reading

/-- With an arrival at the stop of the first line the day is read as two routes, and with no
time at all there it is not read. -/
theorem ofEvents_lossless_serviceDay :
    (∃ timetable : Timetable Float,
      ofEvents (serviceDay [⟨"refId", "A"⟩, ⟨"arrivalOffset", "0:0"⟩]) = .ok timetable ∧
      timetable.routes.toList.map (fun route => (route.line, route.id, route.mode)) =
        [("north", "out", "bus"), ("south", "back", "")] ∧
      AreRoutesOf timetable.routes.toList fun element =>
        element.IsClosedIn (upToEnd (serviceDay [⟨"refId", "A"⟩, ⟨"arrivalOffset", "0:0"⟩]))) ∧
    ∃ error, (ofEvents (serviceDay [⟨"refId", "A"⟩]) : Except Error (Timetable Float)) =
      .error error := by
  constructor
  · rcases ofEvents_serviceDay with ⟨timetable, read, routes⟩
    exact ⟨timetable, read, routes, (ofEvents_lossless _).1 (by decide) timetable read⟩
  · have opened : IsOpen ((serviceDay []).take 5) :=
      ⟨⟨(serviceDay []).take 2, [⟨"id", "out"⟩],
        [.elementStart "transportMode" [], .characters " bus "]⟩, rfl, by decide⟩
    exact (ofEvents_lossless _).2
      (.element _ "stop" [⟨"refId", "A"⟩] ⟨_, rfl⟩ (.inl opened) (.untimed rfl (by decide)))

end JourneyTimes.Timetable
