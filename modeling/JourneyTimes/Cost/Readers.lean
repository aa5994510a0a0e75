import JourneyTimes.Cost.Transit

/-!
# Readers of a timetable

Searches ask a timetable about the same links again and again.  A reader
answers from a timetable and saves itself two kinds of work.  It remembers
its last answer: a link, a time and the seconds the link takes.  And it keeps
the sorted departures of every route it was asked about, in a cache that is
shared with the readers cloned from it.

Neither shows in the answers, which are those of the timetable, as long as a
link number always means the same link.  How many routes a cache holds can be
asked, and clearing the cache of a reader gives that reader a new one and
leaves the old one to the others.
-/

namespace JourneyTimes.Transit

/-- The last answer of a reader. -/
structure Memo (α : Type) where
  link : Nat
  time : α
  duration : α
deriving Repr, DecidableEq

/-- A reader, with the number of its cache. -/
structure Reader (α : Type) where
  cache : Nat
  memo : Option (Memo α)
deriving Repr, DecidableEq

/-- The sorted departures of the routes asked about so far. -/
abbrev DepartureCache (α : Type) := Array (Option (List α))

/-- All readers of a timetable, with their caches. -/
structure Readers (α : Type) where
  timetable : Timetable α
  settings : RouterSettings α
  caches : Array (DepartureCache α)
  readers : Array (Reader α)

namespace Readers

variable {α : Type} [Scalar α]

/-- A cache without any route. -/
def emptyCache (timetable : Timetable α) : DepartureCache α :=
  Array.replicate timetable.routes.size none

/-- One reader, with the number `0`. -/
def make (timetable : Timetable α) (settings : RouterSettings α) : Readers α :=
  { timetable, settings
    caches := #[emptyCache timetable]
    readers := #[⟨0, none⟩] }

/-- The cache of a reader. -/
def cacheOf (family : Readers α) (reader : Reader α) : DepartureCache α :=
  family.caches.getD reader.cache #[]

/-- The sorted departures of a route, from a cache or else from the
timetable. -/
def lookUp (family : Readers α) (cache : DepartureCache α) (route : Nat) :
    List α :=
  match (cache[route]?).join with
  | some departures => departures
  | none =>
    match family.timetable.routes[route]? with
    | some route => route.sortedDepartures
    | none => []

/-- Keep the sorted departures of a route in the cache of a reader. -/
def keep (family : Readers α) (reader : Reader α) (route : Nat)
    (departures : List α) : Readers α :=
  { family with
    caches := family.caches.modify reader.cache
      fun cache => cache.setIfInBounds route (some departures) }

/-- Ask a reader for the next departure from a stop of a route. -/
def nextDeparture? (family : Readers α) (number route stop : Nat) (time : α) :
    Option (α × Readers α) := do
  let reader ← family.readers[number]?
  let found ← family.timetable.stop? route stop
  let departures := family.lookUp (family.cacheOf reader) route
  pure (Timetable.nextDeparture departures found.offsets.departure time,
    family.keep reader route departures)

/-- The answer that a reader remembers, if it is the one asked for. -/
def remembered? (reader : Reader α) (link : Graph.Link α) (time : α) : Option α :=
  match reader.memo with
  | some memo =>
    if memo.link = link.index ∧ memo.time == time then some memo.duration
    else none
  | none => none

/-- Let a reader remember an answer. -/
def remember (family : Readers α) (number : Nat) (memo : Memo α) : Readers α :=
  { family with
    readers := family.readers.modify number
      fun reader => { reader with memo := some memo } }

/-- Ask a reader how long a link takes when entered at a time.  There is no
answer if the link is not in the timetable. -/
def travelTime? (family : Readers α) (number : Nat) (link : Graph.Link α)
    (time : α) : Option (α × Readers α) := do
  let reader ← family.readers[number]?
  match remembered? reader link time with
  | some duration => pure (duration, family)
  | none =>
    match link.stretch with
    | none =>
      let duration := transferTime family.settings link
      pure (duration, family.remember number ⟨link.index, time, duration⟩)
    | some stretch =>
      let (origin, destination) ← ends? family.timetable stretch
      let departures := family.lookUp (family.cacheOf reader) stretch.route
      let duration := Timetable.rideTime departures origin.offsets.departure
        destination.offsets.arrival time
      pure (duration,
        (family.keep reader stretch.route departures).remember number
          ⟨link.index, time, duration⟩)

/-- Ask a reader what a link costs when entered at a time. -/
def disutility? (family : Readers α) (number : Nat) (link : Graph.Link α)
    (time : α) : Option (α × Readers α) := do
  let (duration, family) ← family.travelTime? number link time
  pure (costOf family.settings link duration, family)

/-- Ask a reader for the least cost of a link. -/
def minimum? (family : Readers α) (number : Nat) (link : Graph.Link α) :
    Option α := do
  let _ ← family.readers[number]?
  if prices family.timetable link then
    pure (minimumCost family.timetable family.settings link)
  else none

/-- Clone a reader: the clone gets the next number, remembers the same answer
and shares the cache. -/
def clone? (family : Readers α) (number : Nat) : Option (Nat × Readers α) := do
  let reader ← family.readers[number]?
  pure (family.readers.size,
    { family with readers := family.readers.push reader })

/-- Give a reader a new cache, and let it forget its last answer. -/
def clear? (family : Readers α) (number : Nat) : Option (Readers α) := do
  let _ ← family.readers[number]?
  pure
    { family with
      caches := family.caches.push (emptyCache family.timetable)
      readers := family.readers.setIfInBounds number
        ⟨family.caches.size, none⟩ }

/-- For how many routes the cache of a reader has the departures. -/
def cachedRoutes? (family : Readers α) (number : Nat) : Option Nat := do
  let reader ← family.readers[number]?
  pure ((family.cacheOf reader).toList.countP Option.isSome)

end Readers

end JourneyTimes.Transit
