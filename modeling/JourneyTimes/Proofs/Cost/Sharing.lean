import JourneyTimes.Proofs.Cost.InRange
import JourneyTimes.Proofs.Cost.Memory
import Mathlib.Data.Set.Card

/-!
# What caches hold is what their readers were asked

A cache is made for the first reader and whenever a reader is cleared, and cloning a reader
makes one more reader that shares its cache.  A cache holds the departures of a route exactly
if one of the readers that shared it, at the time, was asked about the route.

A reader that remembers an answer does not look into its cache.  This makes no difference,
because the route of the answer has been put into the cache that the reader has: it keeps its
cache as long as it remembers, and a clone gets both.
-/

namespace JourneyTimes.Transit.Readers

variable {α : Type}

/-! ## Who shares a cache -/

/-- The cache of every reader, and how many caches there are.  Caches are numbered in the
order in which they are made. -/
structure Sharing where
  caches : List Nat
  made : Nat

/-- Who shares a cache after a call: a clone has the cache of the reader it comes from, and a
reader that is cleared gets a new cache of its own. -/
def Sharing.perform (sharing : Sharing) : Call α → Sharing
  | .ask _ _ => sharing
  | .clone number => { sharing with caches := sharing.caches ++ sharing.caches[number]?.toList }
  | .clear number =>
    if number < sharing.caches.length then
      ⟨sharing.caches.set number sharing.made, sharing.made + 1⟩
    else sharing

/-- Who shares a cache after some calls.  There is one reader at first, which has cache `0`. -/
def sharingAfter (calls : List (Call α)) : Sharing :=
  calls.foldl Sharing.perform ⟨[0], 1⟩

/-- The route that a question is about.  There is none if the timetable has no answer. -/
def Question.route? (timetable : Timetable α) : Question α → Option Nat
  | .travelTime link _ | .disutility link _ =>
    if prices timetable link then link.stretch.map (·.route) else none
  | .minimum _ => none
  | .nextDeparture route stop _ => (timetable.stop? route stop).map fun _ => route

/-- One of the readers that shared a cache was asked about a route. -/
def IsAsked (timetable : Timetable α) (calls : List (Call α)) (cache route : Nat) : Prop :=
  ∃ before number question, before ++ [.ask number question] <+: calls ∧
    (sharingAfter before).caches[number]? = some cache ∧ question.route? timetable = some route

theorem sharingAfter_append (calls : List (Call α)) (call : Call α) :
    sharingAfter (calls ++ [call]) = (sharingAfter calls).perform call :=
  List.foldl_concat ..

variable {timetable : Timetable α} {calls : List (Call α)}

theorem isAsked_append {call : Call α} {cache route : Nat} :
    IsAsked timetable (calls ++ [call]) cache route ↔
      IsAsked timetable calls cache route ∨ ∃ number question, call = .ask number question ∧
        (sharingAfter calls).caches[number]? = some cache ∧
        question.route? timetable = some route := by
  constructor
  · rintro ⟨before, number, question, isPrefix, shared, about⟩
    rcases List.prefix_concat_iff.mp isPrefix with same | isEarlier
    · rcases List.append_inj' same rfl with ⟨rfl, isLast⟩
      cases isLast
      exact .inr ⟨number, question, rfl, shared, about⟩
    · exact .inl ⟨before, number, question, isEarlier, shared, about⟩
  · rintro (⟨before, number, question, isPrefix, shared, about⟩ |
      ⟨number, question, rfl, shared, about⟩)
    · exact ⟨before, number, question, isPrefix.trans (List.prefix_append ..), shared, about⟩
    · exact ⟨calls, number, question, List.prefix_refl _, shared, about⟩

theorem IsAsked.append {cache route : Nat} (asked : IsAsked timetable calls cache route)
    (call : Call α) : IsAsked timetable (calls ++ [call]) cache route :=
  isAsked_append.mpr (.inl asked)

theorem Sharing.made_le_perform (sharing : Sharing) (call : Call α) :
    sharing.made ≤ (sharing.perform call).made := by
  cases call with
  | ask number question => exact Nat.le_refl _
  | clone number => exact Nat.le_refl _
  | clear number =>
      rw [perform]
      split_ifs
      · exact Nat.le_succ _
      · exact Nat.le_refl _

/-- The readers have caches that have been made. -/
theorem mem_sharingAfter {cache : Nat} (member : cache ∈ (sharingAfter calls).caches) :
    cache < (sharingAfter calls).made := by
  induction calls using List.reverseRecOn with
  | nil =>
      rw [List.mem_singleton.mp member]
      exact Nat.zero_lt_one
  | append_singleton calls call ih =>
      rw [sharingAfter_append] at member ⊢
      cases call with
      | ask number question => exact ih member
      | clone number =>
          rcases List.mem_append.mp member with old | copied
          · exact ih old
          · exact ih (List.mem_of_getElem? (Option.mem_toList.mp copied))
      | clear number =>
          rw [Sharing.perform] at member ⊢
          split_ifs at member ⊢
          · rcases List.mem_or_eq_of_mem_set member with old | rfl
            · exact Nat.lt_succ_of_lt (ih old)
            · exact Nat.lt_succ_self _
          · exact ih member

/-- Readers are asked when they have a cache. -/
theorem IsAsked.lt_made {cache route : Nat} (asked : IsAsked timetable calls cache route) :
    cache < (sharingAfter calls).made := by
  induction calls using List.reverseRecOn with
  | nil =>
      rcases asked with ⟨before, number, question, isPrefix, -⟩
      simp at isPrefix
  | append_singleton calls call ih =>
      rw [sharingAfter_append]
      refine Nat.lt_of_lt_of_le ?_ (Sharing.made_le_perform _ call)
      rcases isAsked_append.mp asked with earlier | ⟨number, question, -, shared, -⟩
      · exact ih earlier
      · exact mem_sharingAfter (List.mem_of_getElem? shared)

/-! ## What a cache holds -/

/-- A cache holds the departures of a route. -/
def Holds (cache : DepartureCache α) (route : Nat) : Prop :=
  ∃ departures, cache[route]? = some (some departures)

/-- Slots that hold something are counted by their positions. -/
theorem countP_isSome {β : Type} (slots : List (Option β)) :
    slots.countP Option.isSome =
      Set.ncard {position : Nat | ∃ value, slots[position]? = some (some value)} := by
  induction slots using List.reverseRecOn with
  | nil => simp
  | append_singleton slots last ih =>
      have inside : {position : Nat | ∃ value, slots[position]? = some (some value)} ⊆
          {position | position < slots.length} := by
        rintro position ⟨value, found⟩
        exact (List.getElem?_eq_some_iff.mp found).1
      have extended (position : Nat) (value : β) :
          (slots ++ [last])[position]? = some (some value) ↔
            position = slots.length ∧ last = some value ∨
              slots[position]? = some (some value) := by
        rcases Nat.lt_trichotomy position slots.length with less | rfl | more
        · simp [List.getElem?_append_left less, less.ne]
        · simp
        · simp [List.getElem?_append_right more.le, more.le, more.ne', Nat.sub_ne_zero_of_lt more]
      rw [List.countP_append, List.countP_singleton, ih]
      cases last with
      | none => simp [extended]
      | some value =>
          have added : {position : Nat | ∃ found, (slots ++ [some value])[position]? =
              some (some found)} =
              insert slots.length {position | ∃ found, slots[position]? = some (some found)} := by
            refine Set.ext fun position => ?_
            simp [extended, exists_or]
          rw [added, Set.ncard_insert_of_notMem _ ((Set.finite_lt_nat _).subset inside)]
          · rfl
          · intro member
            exact Nat.lt_irrefl _ (inside member)

theorem holds_setIfInBounds {cache : DepartureCache α} {route : Nat}
    (inside : route < cache.size) {departures : List α} {other : Nat} :
    Holds (cache.setIfInBounds route (some departures)) other ↔
      Holds cache other ∨ route = other := by
  rw [Holds, Holds, Array.getElem?_setIfInBounds]
  by_cases same : route = other
  · simp [same, same ▸ inside]
  · simp [same]

variable {settings : RouterSettings α} {passed : Graph.Link α → Prop} {family : Readers α}

/-- The caches hold the departures of the routes that the readers which shared them were asked
about, and so do the caches of readers that remember something. -/
structure Accounted (timetable : Timetable α) (passed : Graph.Link α → Prop)
    (calls : List (Call α)) (family : Readers α) : Prop extends Fitted timetable family where
  timetable_eq : family.timetable = timetable
  shares : family.readers.toList.map (·.cache) = (sharingAfter calls).caches
  made : family.caches.size = (sharingAfter calls).made
  holds_iff : ∀ (number : Nat) (cache : DepartureCache α),
    family.caches[number]? = some cache →
      ∀ route, Holds cache route ↔ IsAsked timetable calls number route
  remembers : ∀ (number : Nat) (reader : Reader α) (memo : Memo α),
    family.readers[number]? = some reader → reader.memo = some memo →
    ∃ link, passed link ∧ link.index = memo.link ∧ ∀ stretch, link.stretch = some stretch →
      IsAsked timetable calls reader.cache stretch.route

namespace Accounted

theorem cache_eq (accounted : Accounted timetable passed calls family) (number : Nat) :
    (sharingAfter calls).caches[number]? = family.readers[number]?.map (·.cache) := by
  rw [← accounted.shares, List.getElem?_map, Array.getElem?_toList]

theorem make [Scalar α] : Accounted timetable passed [] (Readers.make timetable settings) where
  toFitted := .make
  timetable_eq := rfl
  shares := rfl
  made := rfl
  holds_iff := by
    intro number cache found route
    have isFirst : cache = emptyCache timetable := by
      rcases Array.getElem?_eq_some_iff.mp found with ⟨inside, rfl⟩
      simp [Readers.make]
    rw [isFirst]
    constructor
    · rintro ⟨departures, held⟩
      exact absurd held (Faithful.emptyCache_none timetable route departures)
    · rintro ⟨before, number, question, isPrefix, -⟩
      simp at isPrefix
  remembers := by
    intro number reader memo found remembered
    rcases Array.getElem?_eq_some_iff.mp found with ⟨inside, rfl⟩
    simp [Readers.make] at remembered

/-- Calls that share no cache and ask about no route may be left out. -/
theorem congr (accounted : Accounted timetable passed calls family) {others : List (Call α)}
    (sameSharing : sharingAfter others = sharingAfter calls)
    (sameAsked : ∀ cache route, IsAsked timetable others cache route ↔
      IsAsked timetable calls cache route) :
    Accounted timetable passed others family where
  toFitted := accounted.toFitted
  timetable_eq := accounted.timetable_eq
  shares := accounted.shares.trans (congrArg Sharing.caches sameSharing.symm)
  made := accounted.made.trans (congrArg Sharing.made sameSharing.symm)
  holds_iff := by simpa only [sameAsked] using accounted.holds_iff
  remembers := by simpa only [sameAsked] using accounted.remembers

/-- A question about a route changes nothing if the cache of the reader holds the route. -/
theorem known (accounted : Accounted timetable passed calls family) {number : Nat}
    {question : Question α}
    (asked : ∀ reader, family.readers[number]? = some reader → ∀ route,
      question.route? timetable = some route → IsAsked timetable calls reader.cache route) :
    Accounted timetable passed (calls ++ [.ask number question]) family := by
  refine accounted.congr (sharingAfter_append ..) fun cache route => ?_
  rw [isAsked_append, or_iff_left_iff_imp]
  rintro ⟨_, _, same, shared, about⟩
  cases same
  rw [accounted.cache_eq] at shared
  rcases Option.map_eq_some_iff.mp shared with ⟨reader, readerFound, rfl⟩
  exact asked reader readerFound route about

/-- A reader that is asked about a route keeps its departures. -/
theorem keep (accounted : Accounted timetable passed calls family) {number : Nat}
    {reader : Reader α} (found : family.readers[number]? = some reader) {question : Question α}
    {route : Nat} (about : question.route? timetable = some route)
    (inside : route < timetable.routes.size) (departures : List α) :
    Accounted timetable passed (calls ++ [.ask number question])
      (family.keep reader route departures) where
  toFitted := accounted.toFitted.keep reader route departures
  timetable_eq := accounted.timetable_eq
  shares := by
    rw [sharingAfter_append]
    exact accounted.shares
  made := by
    rw [sharingAfter_append, Readers.keep, Array.size_modify]
    exact accounted.made
  holds_iff := by
    intro other cache isThere asked
    have asksNow : (∃ asker another, Call.ask number question = .ask asker another ∧
        (sharingAfter calls).caches[asker]? = some other ∧
        another.route? timetable = some asked) ↔ reader.cache = other ∧ route = asked := by
      constructor
      · rintro ⟨_, _, same, shared, named⟩
        cases same
        rw [accounted.cache_eq, found] at shared
        exact ⟨Option.some.inj shared, Option.some.inj (about.symm.trans named)⟩
      · rintro ⟨rfl, rfl⟩
        exact ⟨number, question, rfl, by rw [accounted.cache_eq, found]; rfl, about⟩
    rw [isAsked_append, asksNow]
    rw [Readers.keep, Array.getElem?_modify] at isThere
    split_ifs at isThere with same
    · rcases Option.map_eq_some_iff.mp isThere with ⟨before, beforeThere, rfl⟩
      have slot : route < before.size := by
        rwa [accounted.slots other before beforeThere]
      rw [holds_setIfInBounds slot, accounted.holds_iff other before beforeThere asked,
        and_iff_right same]
    · rw [accounted.holds_iff other cache isThere asked, or_iff_left fun now => same now.1]
  remembers := by
    intro other otherReader memo otherFound remembered
    rcases accounted.remembers other otherReader memo otherFound remembered with
      ⟨link, isPassed, named, held⟩
    exact ⟨link, isPassed, named, fun stretch stands => (held stretch stands).append _⟩

/-- What is remembered for a link is an answer about a route that was asked about. -/
theorem remember (accounted : Accounted timetable passed calls family) {number : Nat}
    {reader : Reader α} (found : family.readers[number]? = some reader) {link : Graph.Link α}
    (isPassed : passed link) (asked : ∀ stretch, link.stretch = some stretch →
      IsAsked timetable calls reader.cache stretch.route) (time duration : α) :
    Accounted timetable passed calls
      (family.remember number ⟨link.index, time, duration⟩) where
  toFitted := accounted.toFitted.remember number _
  timetable_eq := accounted.timetable_eq
  shares := by
    rw [← accounted.shares]
    refine List.ext_getElem? fun position => ?_
    rw [List.getElem?_map, List.getElem?_map, Array.getElem?_toList, Array.getElem?_toList,
      Readers.remember, Array.getElem?_modify]
    split_ifs
    · rw [Option.map_map]
      rfl
    · rfl
  made := accounted.made
  holds_iff := accounted.holds_iff
  remembers := by
    intro other otherReader memo otherFound remembered
    rw [Readers.remember, Array.getElem?_modify] at otherFound
    split_ifs at otherFound with same
    · subst same
      rw [found] at otherFound
      cases otherFound
      cases remembered
      exact ⟨link, isPassed, rfl, asked⟩
    · exact accounted.remembers other otherReader memo otherFound remembered

variable [Scalar α]

/-- A clone shares the cache of the reader that it comes from, and remembers the same. -/
theorem clone (accounted : Accounted timetable passed calls family) (number : Nat) :
    Accounted timetable passed (calls ++ [.clone number]) (family.perform (.clone number)) := by
  have sameAsked (cache route : Nat) : IsAsked timetable (calls ++ [.clone number]) cache route ↔
      IsAsked timetable calls cache route := by
    simp [isAsked_append]
  rw [perform]
  cases found : family.readers[number]? with
  | none =>
      have refused : family.clone? number = none := by
        rw [clone?, found]
        rfl
      rw [refused]
      refine accounted.congr ?_ sameAsked
      rw [sharingAfter_append, Sharing.perform, accounted.cache_eq, found]
      simp
  | some reader =>
      have cloned : family.clone? number = some (family.readers.size,
          { family with readers := family.readers.push reader }) := by
        rw [clone?, found]
        rfl
      rw [cloned]
      refine ⟨accounted.toFitted.clone cloned, accounted.timetable_eq, ?_, ?_, ?_, ?_⟩
      · rw [sharingAfter_append, Sharing.perform, accounted.cache_eq, found]
        simp [accounted.shares]
      · rw [sharingAfter_append]
        exact accounted.made
      · exact fun other cache isThere route =>
          (accounted.holds_iff other cache isThere route).trans (sameAsked ..).symm
      · intro other copy memo isCopy remembered
        rcases clone?_eq_some cloned with ⟨readers, same, known⟩
        cases same
        rcases known other copy isCopy with ⟨before, old⟩
        simpa only [sameAsked] using accounted.remembers before copy memo old remembered

/-- A reader that is cleared has a new cache, which holds nothing, and remembers nothing. -/
theorem clear (accounted : Accounted timetable passed calls family) (number : Nat) :
    Accounted timetable passed (calls ++ [.clear number]) (family.perform (.clear number)) := by
  have sameAsked (cache route : Nat) : IsAsked timetable (calls ++ [.clear number]) cache route ↔
      IsAsked timetable calls cache route := by
    simp [isAsked_append]
  have length : (sharingAfter calls).caches.length = family.readers.size := by
    rw [← accounted.shares, List.length_map, Array.length_toList]
  rw [perform]
  cases found : family.readers[number]? with
  | none =>
      have refused : family.clear? number = none := by
        rw [clear?, found]
        rfl
      rw [refused]
      refine accounted.congr ?_ sameAsked
      rw [sharingAfter_append, Sharing.perform, if_neg]
      rw [length]
      simpa using found
  | some reader =>
      have cleared : family.clear? number = some
          { family with
            caches := family.caches.push (emptyCache family.timetable)
            readers := family.readers.setIfInBounds number ⟨family.caches.size, none⟩ } := by
        rw [clear?, found]
        rfl
      have inside := (Array.getElem?_eq_some_iff.mp found).1
      rw [cleared]
      refine ⟨accounted.toFitted.clear accounted.timetable_eq cleared, accounted.timetable_eq,
        ?_, ?_, ?_, ?_⟩
      · rw [sharingAfter_append, Sharing.perform, if_pos (length ▸ inside), ← accounted.shares,
          ← accounted.made]
        simp [List.map_set]
      · rw [sharingAfter_append, Sharing.perform, if_pos (length ▸ inside), ← accounted.made]
        exact Array.size_push ..
      · intro other cache isThere route
        rw [sameAsked]
        rcases clear?_eq_some cleared with ⟨caches, readers, same, -, known, -⟩
        cases same
        rcases known other cache isThere with ⟨rfl, rfl⟩ | old
        · -- Nobody has asked a reader with the new cache.
          refine ⟨?_, ?_⟩
          · rintro ⟨departures, held⟩
            exact absurd held (Faithful.emptyCache_none _ route departures)
          · intro asked
            have made := asked.lt_made
            rw [accounted.made] at made
            exact absurd made (Nat.lt_irrefl _)
        · exact accounted.holds_iff other cache old route
      · intro other left memo isLeft remembered
        rcases clear?_eq_some cleared with ⟨caches, readers, same, -, -, known⟩
        cases same
        rcases known other left isLeft with rfl | old
        · cases remembered
        · simpa only [sameAsked] using accounted.remembers other left memo old remembered

/-- Being asked for the next departure is being asked about the route. -/
theorem nextDeparture (accounted : Accounted timetable passed calls family) {number : Nat}
    {reader : Reader α} (found : family.readers[number]? = some reader) (route stop : Nat)
    (time : α) :
    Accounted timetable passed (calls ++ [.ask number (.nextDeparture route stop time)])
      (((family.nextDeparture? number route stop time).map Prod.snd).getD family) := by
  rw [nextDeparture?, found, Option.bind_eq_bind, Option.bind_some, accounted.timetable_eq]
  cases served : timetable.stop? route stop with
  | none =>
      refine accounted.known fun _ _ other about => ?_
      rw [Question.route?, served] at about
      cases about
  | some stopFound =>
      rcases Option.bind_eq_some_iff.mp served with ⟨_, routeFound, -⟩
      refine accounted.keep found ?_ (Array.getElem?_eq_some_iff.mp routeFound).1 _
      rw [Question.route?, served]
      rfl

/-- Being asked how long a link takes is being asked about its route, also if the reader
remembers the answer. -/
theorem travelTime (accounted : Accounted timetable passed calls family)
    (unique : ∀ link other, passed link → passed other → link.index = other.index → link = other)
    {number : Nat} {reader : Reader α} (found : family.readers[number]? = some reader)
    {link : Graph.Link α} (isPassed : passed link) (time : α) {question : Question α}
    (about : question.route? timetable = (Question.travelTime link time).route? timetable) :
    Accounted timetable passed (calls ++ [.ask number question])
      (((family.travelTime? number link time).map Prod.snd).getD family) := by
  rw [Question.route?] at about
  rw [travelTime?, found, Option.bind_eq_bind, Option.bind_some]
  cases answered : remembered? reader link time with
  | some duration =>
      -- The link that is remembered is the one asked about, and its route is known.
      refine accounted.known fun sameReader sameFound route named => ?_
      rw [found] at sameFound
      cases sameFound
      rcases remembered?_eq_some answered with ⟨memo, held, isLast, -, -⟩
      rcases accounted.remembers number reader memo found held with
        ⟨other, otherPassed, otherIndex, asked⟩
      obtain rfl : other = link := unique other link otherPassed isPassed
        (otherIndex.trans isLast)
      rw [about] at named
      split_ifs at named
      rcases Option.map_eq_some_iff.mp named with ⟨stretch, stands, rfl⟩
      exact asked stretch stands
  | none =>
      cases stands : link.stretch with
      | none =>
          have walked : Accounted timetable passed (calls ++ [.ask number question]) family :=
            accounted.known fun _ _ route named => by simp [about, stands] at named
          exact walked.remember found isPassed (by simp [stands]) time _
      | some stretch =>
          dsimp only
          rw [accounted.timetable_eq]
          cases served : ends? timetable stretch with
          | none =>
              refine accounted.known fun _ _ route named => ?_
              rw [about, if_neg (by simp [prices_unserved stands served])] at named
              cases named
          | some ends =>
              have priced := (travelTime_ride family.settings stands served time).1
              have named : question.route? timetable = some stretch.route := by
                rw [about, if_pos priced, stands]
                rfl
              rcases ends_of_prices priced stands with ⟨_, _, origin, -⟩
              rcases Option.bind_eq_some_iff.mp origin with ⟨_, routeFound, -⟩
              have kept := accounted.keep found named
                (Array.getElem?_eq_some_iff.mp routeFound).1
                (family.lookUp (family.cacheOf reader) stretch.route)
              refine kept.remember found isPassed ?_ time _
              rintro _ isStretch
              rw [stands] at isStretch
              cases isStretch
              refine isAsked_append.mpr (.inr ⟨number, question, rfl, ?_, named⟩)
              rw [accounted.cache_eq, found]
              rfl

/-- Whatever is done with readers, caches hold what their readers were asked about. -/
theorem perform (accounted : Accounted timetable passed calls family)
    (unique : ∀ link other, passed link → passed other → link.index = other.index → link = other)
    {call : Call α} (isPassed : ∀ link, Passes [call] link → passed link) :
    Accounted timetable passed (calls ++ [call]) (family.perform call) := by
  cases call with
  | clone number => exact accounted.clone number
  | clear number => exact accounted.clear number
  | ask number question =>
      have questionPassed (link : Graph.Link α) (named : question.link? = some link) :
          passed link :=
        isPassed link ⟨number, question, List.mem_singleton_self _, named⟩
      rw [Readers.perform]
      cases found : family.readers[number]? with
      | none =>
          rw [ask_unknown found]
          refine accounted.known fun reader readerFound => ?_
          rw [found] at readerFound
          cases readerFound
      | some reader =>
          cases question with
          | travelTime link time =>
              exact accounted.travelTime unique found (questionPassed link rfl) time rfl
          | disutility link time =>
              have sameReaders : (family.disutility? number link time).map Prod.snd =
                  (family.travelTime? number link time).map Prod.snd := by
                rw [disutility?]
                cases family.travelTime? number link time <;> rfl
              rw [Readers.ask, sameReaders]
              exact accounted.travelTime unique found (questionPassed link rfl) time rfl
          | minimum link =>
              have sameReaders : ((family.ask number (.minimum link)).map Prod.snd).getD family =
                  family := by
                rw [Readers.ask]
                cases family.minimum? number link <;> rfl
              rw [sameReaders]
              exact accounted.known fun _ _ _ named => by cases named
          | nextDeparture route stop time => exact accounted.nextDeparture found route stop time

/-- After any calls caches hold what their readers were asked about. -/
protected theorem after (settings : RouterSettings α) (calls : List (Call α))
    (unique : ∀ link other, passed link → passed other → link.index = other.index → link = other)
    (isPassed : ∀ link, Passes calls link → passed link) :
    Accounted timetable passed calls ((Readers.make timetable settings).after calls) := by
  induction calls using List.reverseRecOn with
  | nil => exact .make
  | append_singleton calls call ih =>
      rw [Readers.after, List.foldl_concat]
      refine (ih ?_).perform unique ?_
      · rintro link ⟨number, question, member, named⟩
        exact isPassed link ⟨number, question, List.mem_append_left _ member, named⟩
      · rintro link ⟨number, question, member, named⟩
        exact isPassed link ⟨number, question, List.mem_append_right _ member, named⟩

end Accounted

/-- Whatever the readers of a timetable have been asked, and however they have been cloned and
cleared, the number of routes in the cache of a reader is the number of routes that readers
sharing the cache were asked about.  Only a link number has to mean the same link throughout. -/
theorem cachedRoutes?_after [Scalar α] (timetable : Timetable α) (settings : RouterSettings α)
    (calls : List (Call α))
    (numbered : ∀ link other, Passes calls link → Passes calls other →
      link.index = other.index → link = other) (number : Nat) :
    ((make timetable settings).after calls).cachedRoutes? number =
      (sharingAfter calls).caches[number]?.map fun cache =>
        Set.ncard {route | IsAsked timetable calls cache route} := by
  have accounted : Accounted timetable (Passes calls) calls
      ((make timetable settings).after calls) :=
    .after settings calls numbered fun _ passes => passes
  rw [cachedRoutes?, accounted.cache_eq]
  cases found : ((make timetable settings).after calls).readers[number]? with
  | none => rfl
  | some reader =>
      have isThere := Array.getElem?_eq_getElem (accounted.cached number reader found)
      dsimp only [Option.bind_eq_bind, Option.bind_some, Option.map_some]
      rw [cacheOf, Array.getD_eq_getD_getElem?, isThere, Option.getD_some, countP_isSome]
      simp only [Array.getElem?_toList]
      exact congrArg (fun routes => some (Set.ncard routes))
        (Set.ext (accounted.holds_iff reader.cache _ isThere))

/-- A reader is asked about a route and cloned, and then it is cleared.  The clone, which is
asked the same and remembers the answer, still has the old cache. -/
theorem cachedRoutes?_after_nightLine :
    let timetable := Timetable.empty.addRouteUnchecked nightLine
    let family := make timetable .default
    let calls := [.ask 0 (.travelTime nightRide (1000 : ℚ)), .clone 0, .clear 0,
      .ask 1 (.disutility nightRide (1000 : ℚ))]
    (sharingAfter calls).caches = [1, 0] ∧
      (family.after calls).cachedRoutes? 0 =
        some (Set.ncard {route | IsAsked timetable calls 1 route}) ∧
      (family.after calls).cachedRoutes? 1 =
        some (Set.ncard {route | IsAsked timetable calls 0 route}) ∧
      (family.after calls).cachedRoutes? 0 = some 0 ∧
      (family.after calls).cachedRoutes? 1 = some 1 := by
  intro timetable family calls
  have numbered (link other : Graph.Link (Exact ℚ)) (isLink : Passes calls link)
      (isOther : Passes calls other) (_ : link.index = other.index) : link = other := by
    have only (link : Graph.Link (Exact ℚ)) (passes : Passes calls link) : link = nightRide := by
      rcases passes with ⟨number, question, member, named⟩
      simp only [calls, List.mem_cons, Call.ask.injEq, reduceCtorEq, List.not_mem_nil, or_false,
        false_or] at member
      rcases member with ⟨-, rfl⟩ | ⟨-, rfl⟩ <;> simp_all [Question.link?]
    rw [only link isLink, only other isOther]
  exact ⟨rfl, cachedRoutes?_after _ _ calls numbered 0, cachedRoutes?_after _ _ calls numbered 1,
    by decide +kernel, by decide +kernel⟩

end JourneyTimes.Transit.Readers
