import JourneyTimes.Proofs.Landmarks.Distance
import JourneyTimes.Proofs.Matrix.Agreement
import JourneyTimes.Proofs.Matrix.Connected
import JourneyTimes.Proofs.Search.LandmarkPath

/-!
# What the landmarks of a factory bound

A factory prepares landmarks once for every graph, with the cost model of the first
request that is not refused, and hands out the same landmarks to all later ones.  So
the lower bound is one for the cost model of that first request.  It is one for
another cost model too, if no link has a smaller minimum there; and then searches for
journeys give the same times with the landmarks and without, where links cost the time
that they take and the time does not depend on when they are entered.

With a cost model of smaller minima the bound may be too high, and a search may settle
for a longer way.
-/

namespace JourneyTimes

/-! ## Requests -/

namespace LandmarksFactory

section

variable {α : Type} [Scalar α]

/-- The factory after some requests; one that is refused leaves it as it was. -/
def after (factory : LandmarksFactory α) (requests : List (Graph α × CostModel α)) :
    LandmarksFactory α :=
  requests.foldl
    (fun factory asked =>
      match factory.request asked.1 asked.2 with
      | .ok (_, next) => next
      | .error _ => factory)
    factory

/-- Landmarks that were prepared for the first of some requests for a graph that was not
refused. -/
def IsPrepared (number : Nat) (selection : Selection) (requests : List (Graph α × CostModel α))
    (graph : Graph α) (cost : CostModel α) (landmarks : Landmarks α) : Prop :=
  Landmarks.preprocess graph cost number selection = .ok landmarks ∧
  ∃ before later, requests = before ++ (graph, cost) :: later ∧
    ∀ asked ∈ before, asked.1.identity = graph.identity →
      ∀ others, Landmarks.preprocess asked.1 asked.2 number selection ≠ .ok others

/-- A factory knows the graphs that were asked for and not refused, and the landmarks that
were prepared for them first. -/
structure Keeps (number : Nat) (selection : Selection)
    (requests : List (Graph α × CostModel α)) (factory : LandmarksFactory α) : Prop where
  number_eq : factory.number = number
  selection_eq : factory.selection = selection
  known : ∀ identity landmarks, factory.prepared.lookup identity = some landmarks →
    ∃ graph cost, graph.identity = identity ∧
      IsPrepared number selection requests graph cost landmarks
  unknown : ∀ identity, factory.prepared.lookup identity = none →
    ∀ asked ∈ requests, asked.1.identity = identity →
      ∀ landmarks, Landmarks.preprocess asked.1 asked.2 number selection ≠ .ok landmarks

variable {number : Nat} {selection : Selection} {requests : List (Graph α × CostModel α)}
  {graph : Graph α} {cost : CostModel α} {landmarks : Landmarks α} {factory : LandmarksFactory α}

theorem IsPrepared.append (isPrepared : IsPrepared number selection requests graph cost landmarks)
    (asked : Graph α × CostModel α) :
    IsPrepared number selection (requests ++ [asked]) graph cost landmarks := by
  rcases isPrepared with ⟨done, before, later, rfl, refused⟩
  exact ⟨done, before, later ++ [asked], by rw [List.append_assoc, List.cons_append], refused⟩

namespace Keeps

variable (keeps : Keeps number selection requests factory)

include keeps

/-- What was prepared first stays so with one more request. -/
theorem known_append (asked : Graph α × CostModel α) {identity : Nat}
    (found : factory.prepared.lookup identity = some landmarks) :
    ∃ graph cost, graph.identity = identity ∧
      IsPrepared number selection (requests ++ [asked]) graph cost landmarks := by
  rcases keeps.known identity landmarks found with ⟨graph, cost, named, isPrepared⟩
  exact ⟨graph, cost, named, isPrepared.append asked⟩

/-- A request for which no landmarks are prepared leaves the books as they are: the graph is
known, or landmarks cannot be prepared for it. -/
theorem append {asked : Graph α × CostModel α}
    (unprepared : factory.prepared.lookup asked.1.identity = none →
      ∀ landmarks, Landmarks.preprocess asked.1 asked.2 number selection ≠ .ok landmarks) :
    Keeps number selection (requests ++ [asked]) factory where
  number_eq := keeps.number_eq
  selection_eq := keeps.selection_eq
  known _ _ found := keeps.known_append asked found
  unknown := by
    intro identity unfound other member named
    rcases List.mem_append.mp member with old | new
    · exact keeps.unknown identity unfound other old named
    · obtain rfl := List.mem_singleton.mp new
      exact unprepared (named ▸ unfound)

/-- Landmarks that are prepared for a graph that was not known are kept. -/
theorem prepare (unfound : factory.prepared.lookup graph.identity = none)
    (done : Landmarks.preprocess graph cost number selection = .ok landmarks) :
    IsPrepared number selection (requests ++ [(graph, cost)]) graph cost landmarks ∧
      Keeps number selection (requests ++ [(graph, cost)])
        { factory with prepared := (graph.identity, landmarks) :: factory.prepared } := by
  have isPrepared : IsPrepared number selection (requests ++ [(graph, cost)]) graph cost
      landmarks :=
    ⟨done, requests, [], rfl, keeps.unknown _ unfound⟩
  refine ⟨isPrepared, keeps.number_eq, keeps.selection_eq, ?_, ?_⟩
  · intro identity others looked
    rw [List.lookup_cons] at looked
    split at looked
    · rename_i same
      cases looked
      exact ⟨graph, cost, (beq_iff_eq.mp same).symm, isPrepared⟩
    · exact keeps.known_append (graph, cost) looked
  · intro identity looked asked member named
    rw [List.lookup_cons] at looked
    split at looked
    · cases looked
    · rename_i apart
      rcases List.mem_append.mp member with old | new
      · exact keeps.unknown identity looked asked old named
      · rw [List.mem_singleton.mp new] at named
        exact absurd (beq_iff_eq.mpr named.symm) (Bool.eq_false_iff.mp apart)

/-- A request gets the landmarks that were prepared first, and the factory keeps its books. -/
theorem request {next : LandmarksFactory α}
    (served : factory.request graph cost = .ok (landmarks, next)) :
    Keeps number selection (requests ++ [(graph, cost)]) next ∧
      ∃ other first, other.identity = graph.identity ∧
        IsPrepared number selection (requests ++ [(graph, cost)]) other first landmarks := by
  rw [LandmarksFactory.request, prepared?] at served
  cases found : factory.prepared.lookup graph.identity with
  | some known =>
      rw [found] at served
      cases served
      refine ⟨keeps.append fun unfound => ?_, keeps.known_append (graph, cost) found⟩
      rw [found] at unfound
      cases unfound
  | none =>
      rw [found] at served
      rcases bind_eq_ok.mp served with ⟨fresh, done, served⟩
      cases served
      rw [keeps.number_eq, keeps.selection_eq] at done
      rcases keeps.prepare found done with ⟨isPrepared, kept⟩
      exact ⟨kept, graph, cost, rfl, isPrepared⟩

/-- A request is refused only if landmarks cannot be prepared for it, and nothing else can. -/
theorem refused {error : Error} (isRefused : factory.request graph cost = .error error) :
    Keeps number selection (requests ++ [(graph, cost)]) factory := by
  refine keeps.append fun unfound landmarks done => ?_
  rw [LandmarksFactory.request, prepared?, unfound, keeps.number_eq, keeps.selection_eq]
    at isRefused
  dsimp only at isRefused
  rw [done] at isRefused
  cases isRefused

end Keeps

/-- Whatever a factory has been asked for, it keeps what it prepared first. -/
theorem keeps_after (number : Nat) (selection : Selection)
    (requests : List (Graph α × CostModel α)) :
    Keeps number selection requests ((make number selection).after requests) := by
  induction requests using List.reverseRecOn with
  | nil => exact ⟨rfl, rfl, nofun, nofun⟩
  | append_singleton requests asked ih =>
      rw [after, List.foldl_append, List.foldl_cons, List.foldl_nil]
      change Keeps number selection (requests ++ [asked])
        (match ((make number selection).after requests).request asked.1 asked.2 with
          | .ok (_, next) => next
          | .error _ => (make number selection).after requests)
      cases served : ((make number selection).after requests).request asked.1 asked.2 with
      | error error => exact ih.refused served
      | ok answer => exact (ih.request served).1

end

end LandmarksFactory

/-! ## Times of journeys -/

/-- Builders whose workers give the same answers about paths give the same times of
journeys. -/
theorem MatrixBuilder.journeyTimes_congr {α : Type} [Scalar α] {builder other : MatrixBuilder α}
    (staffed : builder.workers = other.workers) {departure : α} {pairs : List (Nat × Nat)}
    (agrees : ∀ journey ∈ journeys pairs,
      ((journeyJob departure).work journey builder.tree).1 =
        ((journeyJob departure).work journey other.tree).1) (times : List (Option α)) :
    builder.journeyTimes pairs departure = .ok times ↔
      other.journeyTimes pairs departure = .ok times := by
  rcases Nat.eq_zero_or_pos builder.workers with none | some
  · have idle (unstaffed : MatrixBuilder α) (none : unstaffed.workers = 0) :
        unstaffed.journeyTimes pairs departure = .error .emptyPool := by
      rw [journeyTimes, startPool, none]
      rfl
    rw [idle builder none, idle other (staffed ▸ none)]
  · rcases startPool_idle some with ⟨pool, started, idle⟩
    rcases startPool_idle (staffed ▸ some) with ⟨otherPool, otherStarted, otherIdle⟩
    rw [(hasJourneySkim started idle pairs departure).eq_ok_iff,
      (hasJourneySkim otherStarted otherIdle pairs departure).eq_ok_iff,
      Job.inOrder_congr agrees]

variable {K : Type} [Field K] [LinearOrder K] [FloorRing K] [Trigonometry K]
  [IsStrictOrderedRing K] {graph : Graph (Exact K)} {cost : CostModel (Exact K)}

/-- Nobody overtakes on links that always take the same time. -/
theorem CostModel.IsSteady.isFirstInFirstOut (steady : cost.IsSteady graph)
    (costsTime : cost.CostsTime graph) : cost.IsFirstInFirstOut graph := by
  intro link member early late before
  have nonneg := costsTime.nonneg link member late
  rw [(steady link member early late).1]
  exact Exact.add_le_add before nonneg (Exact.le_self_of_le nonneg)

/-- Landmarks of a cost model that bounds the costs of another one from below change no time of
a journey, where links cost the time that they always take. -/
theorem MatrixBuilder.journeyTimes_landmarks (wellFormed : graph.WellFormed)
    (priced : ∀ link ∈ graph.links, cost.prices link = true)
    (costsTime : cost.CostsTime graph) (steady : cost.IsSteady graph)
    {bound : CostModel (Exact K)} (bounded : cost.IsBoundedBy bound graph) {number : Nat}
    {selection : Selection} {landmarks : Landmarks (Exact K)}
    (preprocessed : Landmarks.preprocess graph bound number selection = .ok landmarks)
    (workers : Nat) (pairs : List (Nat × Nat)) (departure : K) (times : List (Option (Exact K))) :
    (⟨graph, cost, workers, some landmarks⟩ : MatrixBuilder (Exact K)).journeyTimes pairs
        departure = .ok times ↔
      (make graph cost workers).journeyTimes pairs departure = .ok times := by
  refine journeyTimes_congr ?_ (fun journey _ => ?_) times
  · rfl
  rw [journeyJob_work, journeyJob_work]
  by_cases inside : journey.origin < graph.size ∧ journey.destination < graph.size
  · rcases PathTree.calculatePath_landmarks wellFormed priced costsTime
        (steady.isFirstInFirstOut costsTime) bounded preprocessed (.withLandmarks landmarks) .make
        inside.1 inside.2 departure with
      ⟨guided, guidedTree, plain, plainTree, guidedDone, plainDone, both, -, same⟩
    change (PathTree.withLandmarks graph cost landmarks).calculatePath _ _ _ >>= _ =
      (PathTree.make graph cost).calculatePath _ _ _ >>= _
    rw [guidedDone, plainDone, ok_bind, ok_bind]
    cases guided with
    | none =>
        cases plain with
        | none => rfl
        | some path => cases both.mpr rfl
    | some path =>
        cases plain with
        | none => cases both.mp rfl
        | some other =>
            have times := (same path rfl other rfl).2.1
            exact congrArg (fun time => Except.ok (some time)) times
  · -- Nodes that the graph does not have are refused before any search.
    have refused (tree : PathTree (Exact K)) (ofGraph : tree.graph = graph) :
        tree.calculatePath journey.origin journey.destination departure =
          if journey.origin < graph.size then .error (.nodeOutOfRange journey.destination)
          else .error (.nodeOutOfRange journey.origin) := by
      rw [PathTree.calculatePath, ofGraph, Graph.checkNode, Graph.checkNode]
      by_cases originInside : journey.origin < graph.size
      · rw [if_pos originInside, if_pos originInside,
          if_neg fun both => inside ⟨originInside, both⟩]
        rfl
      · rw [if_neg originInside, if_neg originInside]
        rfl
    rw [refused _ rfl, refused _ rfl]

/-- The landmarks that a factory gives for a request are those that it prepared for the first
request for that graph which was not refused.  Their lower bound is at most the static
distance for the cost model of that first request, and for any other one whose minima are not
smaller.  They change no time of a journey, where links cost the time that they always
take and no less than the minima of the first request. -/
theorem LandmarksFactory.request_bounds (wellFormed : graph.WellFormed) (number : Nat)
    (selection : Selection) (requests : List (Graph (Exact K) × CostModel (Exact K)))
    (minima : ∀ asked ∈ requests ++ [(graph, cost)], asked.2.HasNonnegativeMinima asked.1)
    (identified : ∀ asked ∈ requests, asked.1.identity = graph.identity → asked.1 = graph)
    {landmarks : Landmarks (Exact K)} {next : LandmarksFactory (Exact K)}
    (served : ((make number selection).after requests).request graph cost =
      .ok (landmarks, next)) :
    ∃ first, IsPrepared number selection (requests ++ [(graph, cost)]) graph first landmarks ∧
      (∀ origin < graph.size, ∀ destination < graph.size, ∃ distance,
        graph.IsStaticDistance first origin destination distance ∧
          landmarks.lowerBound origin destination ≤ distance) ∧
      ((∀ link ∈ graph.links, first.minimum link ≤ cost.minimum link) →
        ∀ origin < graph.size, ∀ destination < graph.size, ∃ distance,
          graph.IsStaticDistance cost origin destination distance ∧
            landmarks.lowerBound origin destination ≤ distance) ∧
      ((∀ link ∈ graph.links, cost.prices link = true) → cost.IsSteady graph →
        (∀ link ∈ graph.links, ∀ time : K,
          cost.disutility link time = cost.travelTime link time ∧
            first.minimum link ≤ cost.travelTime link time) →
        ∀ workers, ∃ builder,
          (MatrixBuilder.make graph cost workers).withLandmarks
              ((make number selection).after requests) = .ok (builder, next) ∧
          ∀ (pairs : List (Nat × Nat)) (departure : K) (times : List (Option (Exact K))),
            builder.journeyTimes pairs departure = .ok times ↔
              (MatrixBuilder.make graph cost workers).journeyTimes pairs departure =
                .ok times) := by
  rcases ((keeps_after number selection requests).request served).2 with
    ⟨other, first, named, isPrepared⟩
  rcases isPrepared.2 with ⟨before, later, split, -⟩
  have asked : (other, first) ∈ requests ++ [(graph, cost)] := by
    rw [split]
    exact List.mem_append_right _ (List.mem_cons_self ..)
  obtain rfl : other = graph := by
    rcases List.mem_append.mp asked with old | new
    · exact identified _ old named
    · exact congrArg Prod.fst (List.mem_singleton.mp new)
  have firstMinima : first.HasNonnegativeMinima other := minima _ asked
  have ownMinima : cost.HasNonnegativeMinima other :=
    minima _ (List.mem_append_right _ (List.mem_singleton.mpr rfl))
  have bounds := (Landmarks.preprocess_lowerBound wellFormed firstMinima number selection).2
    landmarks isPrepared.1
  refine ⟨first, isPrepared, ?_, ?_, ?_⟩
  · intro origin originInside destination destinationInside
    rcases bounds origin originInside destination destinationInside with
      ⟨distance, isDistance, -, atMost, -⟩
    exact ⟨distance, isDistance, atMost⟩
  · intro less origin originInside destination destinationInside
    rcases ownMinima.exists_isStaticDistance wellFormed originInside destination with
      ⟨distance, isDistance⟩
    have sound := Landmarks.preprocess_isSound wellFormed firstMinima isPrepared.1
    exact ⟨distance, isDistance, Landmarks.lowerBound_le_of_dearer sound firstMinima less isDistance⟩
  · intro priced steady costsTime workers
    refine ⟨⟨other, cost, workers, some landmarks⟩, ?_, ?_⟩
    · change (((make number selection).after requests).request other cost >>= _) = _
      rw [served]
      rfl
    · intro pairs departure times
      refine MatrixBuilder.journeyTimes_landmarks wellFormed priced ?_ steady ?_ isPrepared.1
        workers pairs departure times
      · refine ⟨fun link member time => (costsTime link member time).1, ?_⟩
        intro link member time
        exact Exact.le_trans (firstMinima link member) (costsTime link member time).2
      · refine ⟨firstMinima, ?_⟩
        intro link member time
        rw [(costsTime link member time).1]
        exact (costsTime link member time).2

/-- Driving without delay, where every metre has the price of a second besides. -/
def CostModel.tolled : CostModel (Exact ℚ) := MatrixBuilder.perMetre (1 : ℚ)

namespace LandmarksFactory

/-- A factory that has been asked for two landmarks of the triangle. -/
def ofTriangle (cost : CostModel (Exact ℚ)) : LandmarksFactory (Exact ℚ) :=
  (make 2 .farthest).after [(Graph.triangle, cost)]

theorem minima_triangle :
    CostModel.freeSpeed.HasNonnegativeMinima (Graph.triangle : Graph (Exact ℚ)) ∧
      CostModel.tolled.HasNonnegativeMinima Graph.triangle := by
  unfold CostModel.HasNonnegativeMinima
  decide +kernel

/-- Landmarks are prepared for driving without tolls, and asked for again with tolls. -/
theorem request_bounds_triangle :
    ∃ landmarks next first,
      (ofTriangle .freeSpeed).request Graph.triangle .tolled = .ok (landmarks, next) ∧
      IsPrepared 2 .farthest [(Graph.triangle, .freeSpeed), (Graph.triangle, .tolled)]
        Graph.triangle first landmarks ∧
      ∀ origin < 3, ∀ destination < 3, ∃ distance,
        Graph.triangle.IsStaticDistance first origin destination distance ∧
          landmarks.lowerBound origin destination ≤ distance := by
  have succeeds : ((ofTriangle .freeSpeed).request Graph.triangle .tolled).toBool = true := by
    decide +kernel
  rcases exists_of_toBool succeeds with ⟨⟨landmarks, next⟩, served⟩
  rcases minima_triangle with ⟨free, tolled⟩
  rcases request_bounds Graph.triangle_wellFormed 2 .farthest [(Graph.triangle, .freeSpeed)]
      (by simpa using ⟨free, tolled⟩) (by simp) served with
    ⟨first, isPrepared, bounds, -⟩
  exact ⟨landmarks, next, first, served, isPrepared, bounds⟩

/-- Landmarks are prepared for driving with tolls, and asked for again without.  Their bound
is more than the static distance then, and a journey takes 50 seconds with them and 20
without. -/
theorem request_triangle_overestimates :
    (∀ asked ∈ [(Graph.triangle, CostModel.tolled), (Graph.triangle, .freeSpeed)],
      asked.2.HasNonnegativeMinima asked.1) ∧
    CostModel.freeSpeed.IsSteady (Graph.triangle : Graph (Exact ℚ)) ∧
    CostModel.freeSpeed.CostsTime (Graph.triangle : Graph (Exact ℚ)) ∧
    ∃ landmarks next distance builder last,
      (ofTriangle .tolled).request Graph.triangle .freeSpeed = .ok (landmarks, next) ∧
      Graph.triangle.IsStaticDistance .freeSpeed 0 2 distance ∧
      ¬ landmarks.lowerBound 0 2 ≤ distance ∧
      (MatrixBuilder.make Graph.triangle .freeSpeed 1).withLandmarks (ofTriangle .tolled) =
        .ok (builder, last) ∧
      builder.journeyTimes [(0, 2)] (28800 : ℚ) = .ok [some (.finite 50)] ∧
      (MatrixBuilder.make (Graph.triangle : Graph (Exact ℚ)) .freeSpeed 1).journeyTimes
        [(0, 2)] (28800 : ℚ) = .ok [some (.finite 20)] := by
  rcases minima_triangle with ⟨free, tolled⟩
  refine ⟨by simpa using ⟨tolled, free⟩, fun _ _ _ _ => ⟨rfl, rfl⟩,
    ⟨fun _ _ _ => rfl, fun link member _ => free link member⟩, ?_⟩
  have found : ((ofTriangle .tolled).request Graph.triangle .freeSpeed).toOption.bind
      (fun answer => ((PathTree.withLandmarks Graph.triangle .freeSpeed
        answer.1).calculatePathWithin 4 0 2 (28800 : ℚ)).map fun guided =>
          (answer.1.lowerBound 0 2, guided.1.travelTime)) =
        some (((150 : ℚ) : Exact ℚ), ((50 : ℚ) : Exact ℚ)) := by
    decide +kernel
  have straight : ((PathTree.make (Graph.triangle : Graph (Exact ℚ))
      .freeSpeed).calculatePathWithin 4 0 2 (28800 : ℚ)).map (·.1.travelTime) =
        some ((20 : ℚ) : Exact ℚ) := by
    decide +kernel
  rcases exists_of_bind_toOption found with ⟨⟨landmarks, next⟩, served, shown⟩
  rcases Option.map_eq_some_iff.mp shown with ⟨⟨guidedPath, _⟩, guidedWithin, shown⟩
  rcases Option.map_eq_some_iff.mp straight with ⟨⟨path, _⟩, within, time⟩
  rcases Prod.mk.inj shown with ⟨bound, guidedTime⟩
  have times (landmarks : Option (Landmarks (Exact ℚ))) {path : Path (Exact ℚ)}
      {answered : PathTree (Exact ℚ)} {travelTime : Exact ℚ}
      (calculated : (⟨Graph.triangle, .freeSpeed, 1, landmarks⟩ :
        MatrixBuilder (Exact ℚ)).tree.calculatePath 0 2 (28800 : ℚ) = .ok (some path, answered))
      (shown : path.travelTime = travelTime) :
      (⟨Graph.triangle, .freeSpeed, 1, landmarks⟩ : MatrixBuilder (Exact ℚ)).journeyTimes
        [(0, 2)] (28800 : ℚ) = .ok [some travelTime] := by
    rw [MatrixBuilder.journeyTimes_of_path Nat.zero_lt_one calculated, Option.map_some, shown]
  rcases free.exists_isStaticDistance Graph.triangle_wellFormed (by decide : 0 < 3) 2 with
    ⟨distance, isDistance⟩
  have first : (Graph.triangle : Graph (Exact ℚ)).links[0]? = some _ := rfl
  have second : (Graph.triangle : Graph (Exact ℚ)).links[1]? = some _ := rfl
  have atMost := isDistance.le _
    (.go (Array.mem_of_getElem? first) (.go (Array.mem_of_getElem? second) (.stay 2)))
  refine ⟨landmarks, next, distance, ⟨Graph.triangle, .freeSpeed, 1, some landmarks⟩, next,
    served, isDistance, ?_, ?_,
    times (some landmarks) (PathTree.calculatePath_of_within guidedWithin) guidedTime,
    times none (PathTree.calculatePath_of_within within) time⟩
  · intro less
    rw [bound] at less
    have wrong := Exact.le_trans less atMost
    revert wrong
    decide +kernel
  · rw [MatrixBuilder.withLandmarks]
    exact bind_eq_ok.mpr ⟨_, served, rfl⟩

end LandmarksFactory

end JourneyTimes
