import JourneyTimes.Proofs.Landmarks.Bound
import JourneyTimes.Proofs.Search.Distance

/-!
# Landmark bounds and static distances

The costs that a landmark knows are static distances from it and to it.  By the
triangle inequality their differences never exceed the static distance of two
nodes, and if one of the nodes is the landmark, a difference is that distance.
The lower bound, which is the greatest of the differences, is then tight.
-/

namespace JourneyTimes

variable {K : Type} [Field K] [LinearOrder K] [FloorRing K] [Trigonometry K]
  {graph : Graph (Exact K)} {cost : CostModel (Exact K)}

/-! ## Landmarks are found -/

section

variable (priced : ∀ link ∈ graph.links, cost.prices link = true)

include priced

theorem Selection.byDistance_ok (count : Nat) (costs : Array (Exact K)) (chosen : List Nat) :
    ∃ nodes, byDistance graph cost count costs chosen = .ok nodes := by
  induction count generalizing costs chosen with
  | zero => exact ⟨chosen, rfl⟩
  | succ count ih =>
      rw [byDistance]
      split
      · exact ⟨chosen, rfl⟩
      · rename_i node _
        rcases Sweep.costs_ok priced .outgoing node with ⟨fresh, done⟩
        rw [done]
        exact ih ..

theorem Selection.choose_ok (selection : Selection) (number : Nat) :
    ∃ nodes, selection.choose graph cost number = .ok nodes := by
  unfold choose
  dsimp only
  split_ifs
  · exact ⟨[], rfl⟩
  · cases selection with
    | pieSlices => exact ⟨_, rfl⟩
    | farthest =>
        rcases Sweep.costs_ok priced .outgoing 0 with ⟨costs, done⟩
        dsimp only
        rw [done]
        exact byDistance_ok priced ..
    | random seed => exact ⟨_, rfl⟩

theorem Landmark.prepare_ok (node : Nat) :
    ∃ landmark, Landmark.prepare graph cost node = .ok landmark := by
  rcases Sweep.costs_ok priced .outgoing node with ⟨costsFrom, outgoing⟩
  rcases Sweep.costs_ok priced .incoming node with ⟨costsTo, incoming⟩
  refine ⟨⟨node, costsFrom, costsTo⟩, ?_⟩
  rw [prepare, outgoing, incoming]
  rfl

/-- However landmarks are chosen, they are found where every link has a price. -/
theorem Landmarks.preprocess_ok (number : Nat) (selection : Selection) :
    ∃ landmarks, Landmarks.preprocess graph cost number selection = .ok landmarks := by
  rcases selection.choose_ok priced number with ⟨nodes, chosen⟩
  rcases mapM_ok (fun node (_ : node ∈ nodes) => Landmark.prepare_ok priced node) with
    ⟨members, prepared⟩
  refine ⟨⟨graph.size, members⟩, ?_⟩
  rw [preprocess, chosen, ok_bind, prepared]
  rfl

end

/-! ## Bounds from below -/

namespace Landmarks

/-- A bound that is raised grows, and reaches a difference that is a number. -/
theorem raise_finite (known : K) (difference : Exact K) :
    ∃ bound : K, raise ↑known difference = bound ∧ known ≤ bound ∧
      ∀ value : K, difference = value → value ≤ bound := by
  unfold raise
  split_ifs with higher
  · rcases Exact.isFinite_iff.mp higher.1 with ⟨value, rfl⟩
    refine ⟨value, rfl, (Exact.finite_lt_finite.mp higher.2).le, ?_⟩
    rintro _ ⟨⟩
    exact le_rfl
  · refine ⟨known, rfl, le_rfl, ?_⟩
    rintro value rfl
    exact not_lt.mp fun less => higher ⟨rfl, Exact.finite_lt_finite.mpr less⟩

theorem raiseBy_finite (origin destination : Nat) (known : K) (landmark : Landmark (Exact K)) :
    ∃ bound : K, raiseBy origin destination ↑known landmark = bound ∧ known ≤ bound ∧
      ∀ value : K, landmark.costFrom destination - landmark.costFrom origin = value ∨
        landmark.costTo origin - landmark.costTo destination = value → value ≤ bound := by
  rcases raise_finite known (landmark.costFrom destination - landmark.costFrom origin) with
    ⟨first, firstEq, firstLe, firstReaches⟩
  rcases raise_finite first (landmark.costTo origin - landmark.costTo destination) with
    ⟨second, secondEq, secondLe, secondReaches⟩
  refine ⟨second, by rw [raiseBy, firstEq, secondEq], firstLe.trans secondLe, ?_⟩
  rintro value (isFirst | isSecond)
  · exact (firstReaches value isFirst).trans secondLe
  · exact secondReaches value isSecond

/-- The lower bound is no less than any difference that is a number. -/
theorem le_lowerBound {landmarks : Landmarks (Exact K)} {origin destination : Nat}
    {landmark : Landmark (Exact K)} (member : landmark ∈ landmarks.members) {value : K}
    (differs : landmark.costFrom destination - landmark.costFrom origin = value ∨
      landmark.costTo origin - landmark.costTo destination = value) :
    ↑value ≤ landmarks.lowerBound origin destination := by
  have folded (members : List (Landmark (Exact K))) (known : K) :
      ∃ bound : K, members.foldl (raiseBy origin destination) ↑known = bound ∧
        known ≤ bound ∧ (landmark ∈ members → value ≤ bound) := by
    induction members generalizing known with
    | nil => exact ⟨known, rfl, le_rfl, fun none => absurd none List.not_mem_nil⟩
    | cons first members ih =>
        rcases raiseBy_finite origin destination known first with
          ⟨raised, raisedEq, grown, reaches⟩
        rcases ih raised with ⟨bound, boundEq, rest, later⟩
        refine ⟨bound, by rw [List.foldl_cons, raisedEq, boundEq], grown.trans rest, ?_⟩
        intro found
        rcases List.mem_cons.mp found with rfl | found
        · exact (reaches value differs).trans rest
        · exact later found
  rcases folded landmarks.members 0 with ⟨bound, boundEq, -, reaches⟩
  rw [lowerBound, Exact.zero_eq, boundEq]
  exact Exact.finite_le_finite.mpr (reaches member)

end Landmarks

/-! ## Landmarks know static distances -/

variable [IsStrictOrderedRing K]

/-- The costs from and to a landmark are static distances. -/
structure Landmark.IsExact (graph : Graph (Exact K)) (cost : CostModel (Exact K))
    (landmark : Landmark (Exact K)) : Prop where
  costFrom : ∀ node, graph.IsStaticDistance cost landmark.node node (landmark.costFrom node)
  costTo : ∀ node, graph.IsStaticDistance cost node landmark.node (landmark.costTo node)

theorem Landmark.prepare_isExact (wellFormed : graph.WellFormed)
    (minima : cost.HasNonnegativeMinima graph) {node : Nat} {landmark : Landmark (Exact K)}
    (prepared : Landmark.prepare graph cost node = .ok landmark)
    (inside : landmark.node < graph.size) : landmark.IsExact graph cost := by
  rcases of_prepare prepared with ⟨rfl, outgoing, incoming⟩
  exact ⟨Sweep.costs_outgoing wellFormed minima outgoing inside,
    Sweep.costs_incoming wellFormed minima incoming inside⟩

theorem Landmarks.preprocess_isExact (wellFormed : graph.WellFormed)
    (minima : cost.HasNonnegativeMinima graph) {number : Nat} {selection : Selection}
    {landmarks : Landmarks (Exact K)}
    (preprocessed : Landmarks.preprocess graph cost number selection = .ok landmarks) {node : Nat}
    (chosen : node ∈ landmarks.nodes) (inside : node < graph.size) :
    ∃ landmark ∈ landmarks.members, landmark.node = node ∧ landmark.IsExact graph cost := by
  rcases List.mem_map.mp chosen with ⟨landmark, member, rfl⟩
  have prepared := (of_preprocess preprocessed).2 landmark member
  exact ⟨landmark, member, rfl, Landmark.prepare_isExact wellFormed minima prepared inside⟩

/-- Between any two nodes there is a static distance. -/
theorem CostModel.HasNonnegativeMinima.exists_isStaticDistance (wellFormed : graph.WellFormed)
    (minima : cost.HasNonnegativeMinima graph) {origin : Nat} (inside : origin < graph.size)
    (destination : Nat) :
    ∃ distance, graph.IsStaticDistance cost origin destination distance := by
  -- Whether a link has a price does not matter for its minimum.
  let priced : CostModel (Exact K) := { cost with prices := fun _ => true }
  have pricedMinima : priced.HasNonnegativeMinima graph := minima
  have succeeds : ∃ scores, Sweep.costs graph priced .outgoing origin = .ok scores :=
    Sweep.costs_ok (fun _ _ => rfl) .outgoing origin
  rcases succeeds with ⟨scores, done⟩
  have isDistance := Sweep.costs_outgoing wellFormed pricedMinima done inside destination
  exact ⟨_, isDistance.le, isDistance.attained⟩

/-- A node has no distance from itself. -/
theorem CostModel.HasNonnegativeMinima.isStaticDistance_self
    (minima : cost.HasNonnegativeMinima graph) (node : Nat) :
    graph.IsStaticDistance cost node node 0 where
  le _ walk := minima.staticCost_nonneg walk.mem_links
  attained := .inr ⟨[], .stay node, rfl⟩

namespace Landmarks

/-- The lower bound is no more than the static cost of any walk. -/
theorem lowerBound_le_staticCost {landmarks : Landmarks (Exact K)}
    (sound : ∀ landmark ∈ landmarks.members, landmark.IsSound graph cost)
    (minima : cost.HasNonnegativeMinima graph) {origin destination : Nat}
    {links : List (Graph.Link (Exact K))} (walk : graph.Walk origin links destination) :
    landmarks.lowerBound origin destination ≤ Graph.staticCost cost links := by
  have nonneg := minima.staticCost_nonneg walk.mem_links
  rcases Exact.nonneg_iff.mp nonneg with endless | ⟨total, -, totalEq⟩
  · rcases landmarks.lowerBound_finite origin destination with ⟨bound, -, boundEq⟩
    rw [endless, boundEq]
    exact Exact.le_infinity bound
  · apply lowerBound_le_of_differences nonneg
    intro landmark member
    have isSound := sound landmark member
    have onwards : graph.Leads .outgoing origin links destination := walk
    have back : graph.Leads .incoming destination links origin := walk
    have ofFrom := isSound.costsFrom.le_staticCost minima onwards
    have ofTo := isSound.costsTo.le_staticCost minima back
    rw [totalEq] at ofFrom ofTo ⊢
    have fromNonneg := isSound.costsFrom.nonneg
    have toNonneg := isSound.costsTo.nonneg
    exact ⟨Exact.sub_le_of_le_add (fromNonneg _) (fromNonneg _) ofFrom,
      Exact.sub_le_of_le_add (toNonneg _) (toNonneg _) ofTo⟩

/-- The lower bound is no more than the static distance of a cost model whose minima are not
smaller either. -/
theorem lowerBound_le_of_dearer {landmarks : Landmarks (Exact K)} {other : CostModel (Exact K)}
    (sound : ∀ landmark ∈ landmarks.members, landmark.IsSound graph cost)
    (minima : cost.HasNonnegativeMinima graph)
    (dearer : ∀ link ∈ graph.links, cost.minimum link ≤ other.minimum link)
    {origin destination : Nat} {distance : Exact K}
    (isDistance : graph.IsStaticDistance other origin destination distance) :
    landmarks.lowerBound origin destination ≤ distance := by
  rcases isDistance.attained with rfl | ⟨links, walk, rfl⟩
  · rcases landmarks.lowerBound_finite origin destination with ⟨bound, -, boundEq⟩
    rw [boundEq]
    exact Exact.le_infinity bound
  · exact Exact.le_trans (lowerBound_le_staticCost sound minima walk)
      (minima.staticCost_mono dearer walk.mem_links)

/-- The lower bound is no less than a static distance from or to a landmark. -/
theorem le_lowerBound_of_isExact {landmarks : Landmarks (Exact K)}
    (minima : cost.HasNonnegativeMinima graph) {landmark : Landmark (Exact K)}
    (member : landmark ∈ landmarks.members) (exact : landmark.IsExact graph cost)
    {origin destination : Nat} (isEnd : landmark.node = origin ∨ landmark.node = destination)
    {distance : K} (isDistance : graph.IsStaticDistance cost origin destination distance) :
    ↑distance ≤ landmarks.lowerBound origin destination := by
  have fromSelf : landmark.costFrom landmark.node = 0 :=
    (exact.costFrom _).unique (minima.isStaticDistance_self _)
  have toSelf : landmark.costTo landmark.node = 0 :=
    (exact.costTo _).unique (minima.isStaticDistance_self _)
  apply le_lowerBound member
  rcases isEnd with rfl | rfl
  · left
    rw [(exact.costFrom destination).unique isDistance, fromSelf, Exact.zero_eq,
      Exact.finite_sub_finite, sub_zero]
  · right
    rw [(exact.costTo origin).unique isDistance, toSelf, Exact.zero_eq,
      Exact.finite_sub_finite, sub_zero]

/-- Landmarks are found where every link has a price.  Their lower bound is never
negative, and no more than the static distance, nor than what any walk costs
whose links are entered at times at which they cost no less than their minima.
From and to a landmark it is the static distance, unless that is infinite. -/
theorem preprocess_lowerBound (wellFormed : graph.WellFormed)
    (minima : cost.HasNonnegativeMinima graph) (number : Nat) (selection : Selection) :
    ((∀ link ∈ graph.links, cost.prices link = true) →
      ∃ landmarks, Landmarks.preprocess graph cost number selection = .ok landmarks) ∧
    ∀ landmarks, Landmarks.preprocess graph cost number selection = .ok landmarks →
      ∀ origin < graph.size, ∀ destination < graph.size, ∃ distance : Exact K,
        graph.IsStaticDistance cost origin destination distance ∧
        0 ≤ landmarks.lowerBound origin destination ∧
        landmarks.lowerBound origin destination ≤ distance ∧
        (∀ entries : List (Graph.Link (Exact K) × Exact K),
          graph.Walk origin (entries.map Prod.fst) destination →
          (∀ entry ∈ entries, cost.minimum entry.1 ≤ cost.disutility entry.1 entry.2) →
          landmarks.lowerBound origin destination ≤ Graph.replayedCost cost entries) ∧
        (origin ∈ landmarks.nodes ∨ destination ∈ landmarks.nodes →
          Scalar.isFinite distance = true →
          landmarks.lowerBound origin destination = distance) := by
  refine ⟨fun priced => preprocess_ok priced number selection, ?_⟩
  intro landmarks preprocessed origin originInside destination destinationInside
  have sound := preprocess_isSound wellFormed minima preprocessed
  rcases landmarks.lowerBound_finite origin destination with ⟨bound, boundNonneg, boundEq⟩
  rcases minima.exists_isStaticDistance wellFormed originInside destination with
    ⟨distance, isDistance⟩
  have atMost : landmarks.lowerBound origin destination ≤ distance := by
    rcases isDistance.attained with rfl | ⟨links, walk, rfl⟩
    · rw [boundEq]
      exact Exact.le_infinity bound
    · exact lowerBound_le_staticCost sound minima walk
  refine ⟨distance, isDistance, ?_, atMost, ?_, ?_⟩
  · rw [boundEq]
    exact Exact.finite_nonneg.mpr boundNonneg
  · intro entries walk atLeast
    exact Exact.le_trans (lowerBound_le_staticCost sound minima walk)
      (minima.staticCost_le walk.mem_links atLeast)
  · intro isLandmark finite
    rcases Exact.isFinite_iff.mp finite with ⟨value, rfl⟩
    apply Exact.le_antisymm atMost
    rcases isLandmark with chosen | chosen
    · rcases preprocess_isExact wellFormed minima preprocessed chosen originInside with
        ⟨landmark, member, isOrigin, exact⟩
      exact le_lowerBound_of_isExact minima member exact (.inl isOrigin) isDistance
    · rcases preprocess_isExact wellFormed minima preprocessed chosen destinationInside with
        ⟨landmark, member, isDestination, exact⟩
      exact le_lowerBound_of_isExact minima member exact (.inr isDestination) isDistance

theorem preprocess_lowerBound_triangle :
    ∃ landmarks, Landmarks.preprocess Graph.triangle CostModel.gated 2 .farthest =
        .ok landmarks ∧
      ∀ origin < 3, ∀ destination < 3, ∃ distance : Exact ℚ,
        Graph.triangle.IsStaticDistance CostModel.gated origin destination distance ∧
        0 ≤ landmarks.lowerBound origin destination ∧
        landmarks.lowerBound origin destination ≤ distance ∧
        (∀ entries : List (Graph.Link (Exact ℚ) × Exact ℚ),
          Graph.triangle.Walk origin (entries.map Prod.fst) destination →
          (∀ entry ∈ entries,
            CostModel.gated.minimum entry.1 ≤ CostModel.gated.disutility entry.1 entry.2) →
          landmarks.lowerBound origin destination ≤
            Graph.replayedCost CostModel.gated entries) ∧
        (origin ∈ landmarks.nodes ∨ destination ∈ landmarks.nodes →
          Scalar.isFinite distance = true →
          landmarks.lowerBound origin destination = distance) := by
  rcases preprocess_lowerBound Graph.triangle_wellFormed (CostModel.gated_isBoundedBy _).minima 2
    .farthest with ⟨found, bounds⟩
  rcases found (fun _ _ => rfl) with ⟨landmarks, preprocessed⟩
  exact ⟨landmarks, preprocessed, bounds landmarks preprocessed⟩

end Landmarks

end JourneyTimes
