import JourneyTimes.Proofs.Landmarks.Consistent

/-!
# Landmarks are chosen farthest first

Each landmark is as far as a node can be from the landmarks before it: it is the first of
the nodes with the greatest distance from the nearest of them.  The first landmark is as far
as possible from node `0`, which need not become a landmark itself.

While landmarks are chosen, the costs at hand are the distances from the nearest landmark.
Those from node `0` are replaced when there is a first landmark, and from then on a new
landmark only lowers them.  Choosing ends early only if no other node can be reached.
-/

namespace JourneyTimes

variable {K : Type} [Field K] [LinearOrder K] [FloorRing K] [Trigonometry K]
  {graph : Graph (Exact K)} {cost : CostModel (Exact K)}

/-! ## Nearest and farthest nodes -/

namespace Graph

/-- The static distance of a node from the nearest of some origins. -/
structure IsNearestDistance (graph : Graph (Exact K)) (cost : CostModel (Exact K))
    (origins : List Nat) (node : Nat) (distance : Exact K) : Prop where
  attained : ∃ origin ∈ origins, graph.IsStaticDistance cost origin node distance
  le : ∀ origin ∈ origins, ∀ other, graph.IsStaticDistance cost origin node other →
    distance ≤ other

/-- The first of the nodes that are farthest from the nearest of some origins, among those
that are not chosen yet and at a finite distance. -/
structure IsFarthest (graph : Graph (Exact K)) (cost : CostModel (Exact K))
    (origins chosen : List Nat) (node : Nat) : Prop where
  inside : node < graph.size
  isNew : node ∉ chosen
  greatest : ∃ farthest : K, graph.IsNearestDistance cost origins node farthest ∧
    ∀ other < graph.size, other ∉ chosen → ∀ distance : K,
      graph.IsNearestDistance cost origins other distance →
        distance ≤ farthest ∧ (distance = farthest → node ≤ other)

theorem IsNearestDistance.unique {origins : List Nat} {node : Nat} {distance other : Exact K}
    (first : graph.IsNearestDistance cost origins node distance)
    (second : graph.IsNearestDistance cost origins node other) : distance = other := by
  rcases first.attained with ⟨origin, member, isDistance⟩
  rcases second.attained with ⟨nearest, nearestMember, isNearest⟩
  exact Exact.le_antisymm (first.le nearest nearestMember other isNearest)
    (second.le origin member distance isDistance)

theorem isNearestDistance_singleton {origin node : Nat} {distance : Exact K}
    (isDistance : graph.IsStaticDistance cost origin node distance)
    (defined : distance ≤ distance) :
    graph.IsNearestDistance cost [origin] node distance where
  attained := ⟨origin, List.mem_singleton_self origin, isDistance⟩
  le := by
    intro other member distance isOther
    rw [List.mem_singleton.mp member] at isOther
    rw [← isDistance.unique isOther]
    exact defined

/-- One more origin can only be nearer. -/
theorem IsNearestDistance.append {origins : List Nat} {origin node : Nat}
    {distance other : Exact K} (nearest : graph.IsNearestDistance cost origins node distance)
    (isDistance : graph.IsStaticDistance cost origin node other)
    (distanceDefined : distance ≤ distance) (otherDefined : other ≤ other) :
    graph.IsNearestDistance cost (origins ++ [origin]) node
      (if other < distance then other else distance) := by
  split_ifs with nearer
  · refine ⟨⟨origin, by simp, isDistance⟩, ?_⟩
    intro third member length isLength
    rcases List.mem_append.mp member with old | new
    · exact Exact.le_trans (Exact.le_of_lt nearer) (nearest.le third old length isLength)
    · rw [List.mem_singleton.mp new] at isLength
      rw [← isDistance.unique isLength]
      exact otherDefined
  · rcases nearest.attained with ⟨first, firstMember, isFirst⟩
    refine ⟨⟨first, List.mem_append_left _ firstMember, isFirst⟩, ?_⟩
    intro third member length isLength
    rcases List.mem_append.mp member with old | new
    · exact nearest.le third old length isLength
    · rw [List.mem_singleton.mp new] at isLength
      rw [← isDistance.unique isLength]
      exact Exact.le_of_not_lt otherDefined distanceDefined nearer

section

variable [IsStrictOrderedRing K]

theorem IsStaticDistance.nonneg (minima : cost.HasNonnegativeMinima graph) {origin node : Nat}
    {distance : Exact K} (isDistance : graph.IsStaticDistance cost origin node distance) :
    0 ≤ distance := by
  rcases isDistance.attained with rfl | ⟨links, walk, rfl⟩
  · exact Exact.nonneg_iff.mpr (.inl rfl)
  · exact minima.staticCost_nonneg walk.mem_links

theorem IsNearestDistance.nonneg (minima : cost.HasNonnegativeMinima graph)
    {origins : List Nat} {node : Nat} {distance : Exact K}
    (nearest : graph.IsNearestDistance cost origins node distance) : 0 ≤ distance := by
  rcases nearest.attained with ⟨origin, -, isDistance⟩
  exact isDistance.nonneg minima

/-- A node that can be reached is at a finite distance. -/
theorem HasFiniteWalk.isStaticDistance_finite (minima : cost.HasNonnegativeMinima graph)
    {origin node : Nat} (reaches : graph.HasFiniteWalk cost origin node) {distance : Exact K}
    (isDistance : graph.IsStaticDistance cost origin node distance) :
    ∃ value : K, distance = value := by
  rcases reaches with ⟨links, walk, finite⟩
  rcases staticCost_finite finite with ⟨total, totalEq⟩
  have atMost := isDistance.le links walk
  rw [totalEq] at atMost
  rcases Exact.finite_of_nonneg_of_lt (isDistance.nonneg minima)
    (Exact.lt_of_le_of_lt atMost (Exact.finite_lt_infinity total)) with ⟨value, -, valueEq⟩
  exact ⟨value, valueEq⟩

end

end Graph

/-! ## The costliest candidate -/

namespace Selection

/-- Of candidates in order the first of the costliest ones is left. -/
theorem exists_foldl_costlier {candidates : List (Nat × Exact K)}
    (ordered : candidates.Pairwise fun left right => left.1 < right.1)
    (finite : ∀ candidate ∈ candidates, ∃ value : K, candidate.2 = value)
    (nonempty : candidates ≠ []) :
    ∃ best ∈ candidates, candidates.foldl costlier none = some best ∧
      ∀ other ∈ candidates, other.2 ≤ best.2 ∧ (best.2 ≤ other.2 → best.1 ≤ other.1) := by
  induction candidates using List.reverseRecOn with
  | nil => exact absurd rfl nonempty
  | append_singleton candidates last ih =>
      rcases finite last (by simp) with ⟨lastCost, lastEq⟩
      have lastLe : last.2 ≤ last.2 := by
        rw [lastEq]
        exact Exact.finite_le_finite.mpr le_rfl
      rw [List.foldl_concat]
      rcases List.pairwise_append.mp ordered with ⟨before, -, after⟩
      by_cases alone : candidates = []
      · subst alone
        refine ⟨last, by simp, rfl, ?_⟩
        intro other member
        rw [List.nil_append, List.mem_singleton] at member
        rw [member]
        exact ⟨lastLe, fun _ => Nat.le_refl _⟩
      · rcases ih before (fun candidate member => finite candidate (by simp [member])) alone with
          ⟨best, bestMember, folded, bestLe⟩
        rcases finite best (by simp [bestMember]) with ⟨bestCost, bestEq⟩
        rw [folded, costlier]
        split_ifs with notCostlier
        · refine ⟨best, List.mem_append_left _ bestMember, rfl, ?_⟩
          intro other member
          rcases List.mem_append.mp member with old | new
          · exact bestLe other old
          · rw [List.mem_singleton.mp new]
            exact ⟨notCostlier, fun _ => (after best bestMember last (by simp)).le⟩
        · have more : best.2 < last.2 := by
            rw [bestEq, lastEq, Exact.finite_le_finite, not_le] at notCostlier
            rwa [bestEq, lastEq, Exact.finite_lt_finite]
          refine ⟨last, by simp, rfl, ?_⟩
          intro other member
          rcases List.mem_append.mp member with old | new
          · have less := Exact.lt_of_le_of_lt (bestLe other old).1 more
            exact ⟨Exact.le_of_lt less, fun atLeast => absurd less (Exact.not_lt_of_le atLeast)⟩
          · rw [List.mem_singleton.mp new]
            exact ⟨lastLe, fun _ => Nat.le_refl _⟩

/-- The nodes that may be chosen next, with their costs. -/
def candidates (costs : Array (Exact K)) (chosen : List Nat) : List (Nat × Exact K) :=
  costs.toList.zipIdx.filterMap fun (cost, node) =>
    if Scalar.isFinite cost ∧ ¬ chosen.contains node then some (node, cost) else none

theorem costliest?_eq (costs : Array (Exact K)) (chosen : List Nat) :
    costliest? costs chosen = ((candidates costs chosen).foldl costlier none).map Prod.fst := rfl

theorem mem_candidates {costs : Array (Exact K)} {chosen : List Nat} {node : Nat}
    {price : Exact K} :
    (node, price) ∈ candidates costs chosen ↔
      costs[node]? = some price ∧ node ∉ chosen ∧ ∃ value : K, price = value := by
  rw [candidates, List.mem_filterMap]
  constructor
  · rintro ⟨⟨found, position⟩, member, kept⟩
    dsimp only at kept
    split_ifs at kept with allowed
    cases kept
    have isThere := List.mk_mem_zipIdx_iff_getElem?.mp member
    rw [Array.getElem?_toList] at isThere
    exact ⟨isThere, by simpa using allowed.2, Exact.isFinite_iff.mp allowed.1⟩
  · rintro ⟨isThere, isNew, value, rfl⟩
    refine ⟨(value, node), List.mk_mem_zipIdx_iff_getElem?.mpr ?_, ?_⟩
    · rwa [Array.getElem?_toList]
    · exact if_pos ⟨rfl, by simpa using isNew⟩

theorem candidates_ordered (costs : Array (Exact K)) (chosen : List Nat) :
    (candidates costs chosen).Pairwise fun left right => left.1 < right.1 := by
  have positions : costs.toList.zipIdx.Pairwise fun left right => left.2 < right.2 := by
    rw [← List.pairwise_map (f := Prod.snd) (R := (· < ·)), List.zipIdx_map_snd]
    exact List.pairwise_lt_range'
  refine positions.filterMap _ ?_
  rintro ⟨price, node⟩ ⟨otherPrice, other⟩ less first firstKept second secondKept
  dsimp only at firstKept secondKept less
  split_ifs at firstKept secondKept
  cases firstKept
  cases secondKept
  exact less

/-- The node that is chosen next is the first of the costliest ones. -/
theorem costliest?_eq_some {costs : Array (Exact K)} {chosen : List Nat} {node : Nat}
    (found : costliest? costs chosen = some node) :
    node ∉ chosen ∧ ∃ greatest : K, costs[node]? = some ↑greatest ∧
      ∀ other ∉ chosen, ∀ value : K, costs[other]? = some ↑value →
        value ≤ greatest ∧ (value = greatest → node ≤ other) := by
  rw [costliest?_eq] at found
  have finite : ∀ candidate ∈ candidates costs chosen, ∃ value : K, candidate.2 = value :=
    fun candidate member => (mem_candidates.mp member).2.2
  have nonempty : candidates costs chosen ≠ [] := by
    intro none
    rw [none] at found
    cases found
  rcases exists_foldl_costlier (candidates_ordered costs chosen) finite nonempty with
    ⟨⟨best, price⟩, member, folded, bestLe⟩
  rw [folded] at found
  cases found
  rcases mem_candidates.mp member with ⟨isThere, isNew, greatest, rfl⟩
  refine ⟨isNew, greatest, isThere, ?_⟩
  intro other otherNew value otherThere
  rcases bestLe (other, value) (mem_candidates.mpr ⟨otherThere, otherNew, value, rfl⟩) with
    ⟨atMost, first⟩
  refine ⟨Exact.finite_le_finite.mp atMost, ?_⟩
  rintro rfl
  exact first (Exact.finite_le_finite.mpr le_rfl)

/-- No node is chosen only if none is left at a finite cost. -/
theorem costliest?_eq_none {costs : Array (Exact K)} {chosen : List Nat}
    (none : costliest? costs chosen = none) {other : Nat} (isNew : other ∉ chosen) (value : K) :
    costs[other]? ≠ some ↑value := by
  intro isThere
  have member : (other, (value : Exact K)) ∈ candidates costs chosen :=
    mem_candidates.mpr ⟨isThere, isNew, value, rfl⟩
  have finite : ∀ candidate ∈ candidates costs chosen, ∃ value : K, candidate.2 = value :=
    fun candidate member => (mem_candidates.mp member).2.2
  rcases exists_foldl_costlier (candidates_ordered costs chosen) finite
    (List.ne_nil_of_mem member) with ⟨best, -, folded, -⟩
  rw [costliest?_eq, folded] at none
  cases none

/-! ## Choosing one landmark after another -/

/-- Where the distances of the next landmark are counted from: the landmarks that are
chosen, or node `0` as long as there is none. -/
def origins (chosen : List Nat) : List Nat :=
  if chosen = [] then [0] else chosen

/-- Each of the landmarks is farthest from those before it. -/
def IsFarthestFirst (graph : Graph (Exact K)) (cost : CostModel (Exact K)) (nodes : List Nat) :
    Prop :=
  ∀ earlier node later, nodes = earlier ++ node :: later →
    graph.IsFarthest cost (origins earlier) earlier node

/-- No other node is at a finite distance from any of the landmarks. -/
def IsExhausted (graph : Graph (Exact K)) (cost : CostModel (Exact K)) (nodes : List Nat) : Prop :=
  ∀ origin ∈ origins nodes, ∀ other < graph.size, other ∉ nodes → ∀ distance : K,
    ¬ graph.IsStaticDistance cost origin other distance

namespace IsFarthestFirst

theorem nil : IsFarthestFirst graph cost [] := by
  intro earlier node later split
  simp at split

theorem init {nodes : List Nat} {last : Nat}
    (farthestFirst : IsFarthestFirst graph cost (nodes ++ [last])) :
    IsFarthestFirst graph cost nodes := by
  rintro earlier node later rfl
  exact farthestFirst earlier node (later ++ [last]) (by simp)

theorem last {nodes : List Nat} {last : Nat}
    (farthestFirst : IsFarthestFirst graph cost (nodes ++ [last])) :
    graph.IsFarthest cost (origins nodes) nodes last :=
  farthestFirst nodes last [] rfl

theorem append {nodes : List Nat} (farthestFirst : IsFarthestFirst graph cost nodes) {node : Nat}
    (farthest : graph.IsFarthest cost (origins nodes) nodes node) :
    IsFarthestFirst graph cost (nodes ++ [node]) := by
  intro earlier other later split
  rcases List.eq_nil_or_concat later with rfl | ⟨between, final, rfl⟩
  · rcases List.append_inj' split rfl with ⟨rfl, same⟩
    cases same
    exact farthest
  · rw [List.concat_eq_append, ← List.cons_append, ← List.append_assoc] at split
    exact farthestFirst earlier other between (List.append_inj' split rfl).1

theorem nodup {nodes : List Nat} (farthestFirst : IsFarthestFirst graph cost nodes) :
    nodes.Nodup := by
  induction nodes using List.reverseRecOn with
  | nil => exact List.nodup_nil
  | append_singleton nodes node ih =>
      rw [← List.concat_eq_append, List.nodup_concat]
      exact ⟨farthestFirst.last.isNew, ih farthestFirst.init⟩

theorem inside {nodes : List Nat} (farthestFirst : IsFarthestFirst graph cost nodes) :
    ∀ node ∈ nodes, node < graph.size := by
  intro node member
  rcases List.append_of_mem member with ⟨earlier, later, split⟩
  exact (farthestFirst earlier node later split).inside

end IsFarthestFirst

theorem getD_nearestCosts (isFirst : Bool) {costs fresh : Array (Exact K)}
    (sameSize : costs.size = fresh.size) (node : Nat) :
    (nearestCosts isFirst costs fresh).getD node Scalar.infinity =
      if isFirst = true ∨ fresh.getD node Scalar.infinity < costs.getD node Scalar.infinity then
        fresh.getD node Scalar.infinity
      else costs.getD node Scalar.infinity := by
  rw [nearestCosts, Array.getD_eq_getD_getElem?, Array.getElem?_zipWith,
    Array.getD_eq_getD_getElem?, Array.getD_eq_getD_getElem?]
  by_cases inside : node < costs.size
  · rw [Array.getElem?_eq_getElem inside, Array.getElem?_eq_getElem (sameSize ▸ inside)]
    rfl
  · rw [Array.getElem?_eq_none (Nat.le_of_not_lt inside),
      Array.getElem?_eq_none (sameSize ▸ Nat.le_of_not_lt inside)]
    exact (ite_self _).symm

/-- The costs at hand are the distances from the nearest landmark. -/
structure Selecting (graph : Graph (Exact K)) (cost : CostModel (Exact K))
    (costs : Array (Exact K)) (chosen : List Nat) : Prop where
  size : costs.size = graph.size
  nearest : ∀ node, graph.IsNearestDistance cost (origins chosen) node
    (costs.getD node Scalar.infinity)
  farthestFirst : IsFarthestFirst graph cost chosen

namespace Selecting

variable {costs fresh : Array (Exact K)} {chosen : List Nat}

theorem isFarthest (selecting : Selecting graph cost costs chosen) {node : Nat}
    (found : costliest? costs chosen = some node) :
    graph.IsFarthest cost (origins chosen) chosen node := by
  rcases costliest?_eq_some found with ⟨isNew, greatest, isThere, most⟩
  have inside := (Array.getElem?_eq_some_iff.mp isThere).1
  refine ⟨selecting.size ▸ inside, isNew, greatest, ?_, ?_⟩
  · have nearest := selecting.nearest node
    rwa [Array.getD_eq_getD_getElem?, isThere] at nearest
  · intro other otherInside otherNew distance isDistance
    refine most other otherNew distance ?_
    rw [(selecting.nearest other).unique isDistance |>.symm, Array.getD_eq_getD_getElem?,
      Array.getElem?_eq_getElem (selecting.size.symm ▸ otherInside)]
    rfl

variable [IsStrictOrderedRing K] (wellFormed : graph.WellFormed)
  (minima : cost.HasNonnegativeMinima graph)

include wellFormed minima

omit wellFormed in
/-- If no node is left to choose, none is at a finite distance. -/
theorem isExhausted (selecting : Selecting graph cost costs chosen)
    (none : costliest? costs chosen = none) : IsExhausted graph cost chosen := by
  intro origin member other inside isNew distance isDistance
  have nearest := selecting.nearest other
  have atMost := nearest.le origin member distance isDistance
  rcases Exact.finite_of_nonneg_of_lt (nearest.nonneg minima)
    (Exact.lt_of_le_of_lt atMost (Exact.finite_lt_infinity distance)) with ⟨value, -, valueEq⟩
  refine costliest?_eq_none none isNew value ?_
  rw [← valueEq, Array.getD_eq_getD_getElem?,
    Array.getElem?_eq_getElem (selecting.size.symm ▸ inside)]
  rfl

/-- The distances from node `0` are at hand before there is a landmark. -/
theorem start (nonempty : 0 < graph.size)
    (done : Sweep.costs graph cost .outgoing 0 = .ok costs) :
    Selecting graph cost costs [] where
  size := Sweep.costs_size wellFormed minima done
  nearest := by
    intro node
    have isDistance := Sweep.costs_outgoing wellFormed minima done nonempty node
    exact Graph.isNearestDistance_singleton isDistance
      (Exact.le_self_of_le (isDistance.nonneg minima))
  farthestFirst := .nil

/-- The costs from the first landmark replace those from node `0`; later on costs are only
lowered. -/
theorem choose (selecting : Selecting graph cost costs chosen) {node : Nat}
    (found : costliest? costs chosen = some node)
    (done : Sweep.costs graph cost .outgoing node = .ok fresh) :
    Selecting graph cost (nearestCosts chosen.isEmpty costs fresh) (chosen ++ [node]) := by
  have farthest := selecting.isFarthest found
  have freshSize := Sweep.costs_size wellFormed minima done
  have sameSize : costs.size = fresh.size := selecting.size.trans freshSize.symm
  refine ⟨?_, ?_, selecting.farthestFirst.append farthest⟩
  · rw [nearestCosts, Array.size_zipWith, sameSize, Nat.min_self, freshSize]
  · intro other
    have isDistance := Sweep.costs_outgoing wellFormed minima done farthest.inside other
    have defined := Exact.le_self_of_le (isDistance.nonneg minima)
    rw [origins, if_neg (by simp), getD_nearestCosts _ sameSize]
    by_cases isFirst : chosen = []
    · subst isFirst
      rw [if_pos (.inl rfl)]
      exact Graph.isNearestDistance_singleton isDistance defined
    · have nearest := selecting.nearest other
      rw [origins, if_neg isFirst] at nearest
      simp only [List.isEmpty_iff, isFirst, false_or]
      exact nearest.append isDistance (Exact.le_self_of_le (nearest.nonneg minima)) defined

/-- Choosing ends with as many landmarks as are wanted, or else when no other node is at a
finite distance. -/
theorem byDistance (selecting : Selecting graph cost costs chosen) {count : Nat}
    {nodes : List Nat} (done : Selection.byDistance graph cost count costs chosen = .ok nodes) :
    IsFarthestFirst graph cost nodes ∧ nodes.length ≤ chosen.length + count ∧
      (nodes.length = chosen.length + count ∨ IsExhausted graph cost nodes) := by
  induction count generalizing costs chosen with
  | zero =>
      cases done
      exact ⟨selecting.farthestFirst, Nat.le_refl _, .inl rfl⟩
  | succ count ih =>
      rw [Selection.byDistance] at done
      cases found : costliest? costs chosen with
      | none =>
          rw [found] at done
          cases done
          exact ⟨selecting.farthestFirst, Nat.le_add_right ..,
            .inr (selecting.isExhausted minima found)⟩
      | some node =>
          rw [found] at done
          rcases bind_eq_ok.mp done with ⟨fresh, swept, rest⟩
          rcases ih (selecting.choose wellFormed minima found swept) rest with
            ⟨farthestFirst, atMost, ended⟩
          rw [List.length_append, List.length_singleton, Nat.add_right_comm,
            Nat.add_assoc] at atMost ended
          exact ⟨farthestFirst, atMost, ended⟩

end Selecting

variable [IsStrictOrderedRing K]

/-- A node at a finite distance is always left before there is a landmark, namely node `0`. -/
theorem IsExhausted.ne_nil (minima : cost.HasNonnegativeMinima graph) (nonempty : 0 < graph.size)
    {nodes : List Nat} (exhausted : IsExhausted graph cost nodes) : nodes ≠ [] := by
  rintro rfl
  exact exhausted 0 (List.mem_singleton_self 0) 0 nonempty List.not_mem_nil 0
    (minima.isStaticDistance_self 0)

/-- Landmarks are farthest first; there are as many as are wanted, or else no other node is at
a finite distance from them. -/
theorem choose_farthest (wellFormed : graph.WellFormed) (minima : cost.HasNonnegativeMinima graph)
    {number : Nat} {nodes : List Nat} (chosen : farthest.choose graph cost number = .ok nodes) :
    IsFarthestFirst graph cost nodes ∧ nodes.length ≤ min number graph.size ∧
      (nodes.length = min number graph.size ∨ nodes ≠ [] ∧ IsExhausted graph cost nodes) := by
  rw [choose] at chosen
  split_ifs at chosen with isNone
  · cases chosen
    exact ⟨.nil, Nat.zero_le _, .inl isNone.symm⟩
  · have nonempty : 0 < graph.size := by omega
    rcases bind_eq_ok.mp chosen with ⟨costs, swept, rest⟩
    rcases (Selecting.start wellFormed minima nonempty swept).byDistance wellFormed minima rest with
      ⟨farthestFirst, atMost, ended⟩
    rw [List.length_nil, Nat.zero_add] at atMost ended
    refine ⟨farthestFirst, atMost, ended.imp id ?_⟩
    exact fun exhausted => ⟨exhausted.ne_nil minima nonempty, exhausted⟩

/-- Nothing that is left can be reached. -/
theorem IsExhausted.not_hasFiniteWalk (wellFormed : graph.WellFormed)
    (minima : cost.HasNonnegativeMinima graph) {nodes : List Nat}
    (exhausted : IsExhausted graph cost nodes) (inside : ∀ node ∈ nodes, node < graph.size) :
    ∀ landmark ∈ nodes, ∀ node < graph.size, node ∉ nodes →
      ¬ graph.HasFiniteWalk cost landmark node := by
  intro landmark member node nodeInside isNew reaches
  rcases minima.exists_isStaticDistance wellFormed (inside landmark member) node with
    ⟨distance, isDistance⟩
  rcases reaches.isStaticDistance_finite minima isDistance with ⟨value, rfl⟩
  have isOrigin : landmark ∈ origins nodes := by
    rwa [origins, if_neg (List.ne_nil_of_mem member)]
  exact exhausted landmark isOrigin node nodeInside isNew value isDistance

end Selection

/-! ## The landmarks of a graph -/

namespace Landmarks

variable [IsStrictOrderedRing K]

/-- Landmarks chosen by distance are found where every link has a price.  They are different
nodes of the graph.  Each is the first of the nodes that are farthest from those before it,
and the first landmark is the first of the nodes that are farthest from node `0`.  There are
as many as are wanted, but no more than nodes, unless there are some and no other node can be
reached from them along links of finite minimum.  If every node reaches every other and all
minima are finite, there are as many as are wanted. -/
theorem preprocess_farthestFirst (wellFormed : graph.WellFormed)
    (minima : cost.HasNonnegativeMinima graph) (number : Nat) :
    ((∀ link ∈ graph.links, cost.prices link = true) →
      ∃ landmarks, Landmarks.preprocess graph cost number .farthest = .ok landmarks) ∧
    ∀ landmarks, Landmarks.preprocess graph cost number .farthest = .ok landmarks →
      landmarks.nodes.Nodup ∧ (∀ node ∈ landmarks.nodes, node < graph.size) ∧
      (∀ earlier node later, landmarks.nodes = earlier ++ node :: later →
        graph.IsFarthest cost (if earlier = [] then [0] else earlier) earlier node) ∧
      landmarks.nodes.length ≤ min number graph.size ∧
      (landmarks.nodes.length = min number graph.size ∨
        landmarks.nodes ≠ [] ∧ ∀ landmark ∈ landmarks.nodes, ∀ node < graph.size,
          node ∉ landmarks.nodes → ¬ graph.HasFiniteWalk cost landmark node) ∧
      ((∀ origin < graph.size, ∀ destination < graph.size,
          ∃ links, graph.Walk origin links destination) →
        (∀ link ∈ graph.links, Scalar.isFinite (cost.minimum link) = true) →
        landmarks.nodes.length = min number graph.size) := by
  refine ⟨fun priced => preprocess_ok priced number .farthest, ?_⟩
  intro landmarks preprocessed
  rcases Selection.choose_farthest wellFormed minima (of_preprocess preprocessed).1 with
    ⟨farthestFirst, atMost, ended⟩
  have inside := farthestFirst.inside
  have complete : landmarks.nodes.length = min number graph.size ∨
      landmarks.nodes ≠ [] ∧ ∀ landmark ∈ landmarks.nodes, ∀ node < graph.size,
        node ∉ landmarks.nodes → ¬ graph.HasFiniteWalk cost landmark node :=
    ended.imp id fun stuck =>
      ⟨stuck.1, stuck.2.not_hasFiniteWalk wellFormed minima inside⟩
  refine ⟨farthestFirst.nodup, inside, farthestFirst, atMost, complete, ?_⟩
  intro connected finite
  rcases complete with all | ⟨nonempty, unreached⟩
  · exact all
  · -- Every node is a landmark, as the first landmark reaches all of them.
    rcases List.exists_mem_of_ne_nil _ nonempty with ⟨landmark, isLandmark⟩
    have everyNode : List.range graph.size ⊆ landmarks.nodes := by
      intro node member
      have nodeInside := List.mem_range.mp member
      by_contra isNew
      rcases connected landmark (inside landmark isLandmark) node nodeInside with ⟨links, walk⟩
      exact unreached landmark isLandmark node nodeInside isNew
        ⟨links, walk, fun link member => finite link (walk.mem_links link member)⟩
    have atLeast := (List.nodup_range.subperm everyNode).length_le
    rw [List.length_range] at atLeast
    omega

/-- Of the two nodes of the shuttle both become landmarks, though three are wanted. -/
theorem preprocess_farthestFirst_shuttle :
    (Graph.shuttle : Graph (Exact ℚ)).WellFormed ∧
      CostModel.gated.HasNonnegativeMinima Graph.shuttle ∧
      ∃ landmarks, Landmarks.preprocess Graph.shuttle CostModel.gated 3 .farthest =
          .ok landmarks ∧
        landmarks.nodes.Nodup ∧ landmarks.nodes.length = 2 ∧
        ∀ earlier node later, landmarks.nodes = earlier ++ node :: later →
          Graph.shuttle.IsFarthest CostModel.gated (if earlier = [] then [0] else earlier)
            earlier node := by
  have minima := (CostModel.gated_isBoundedBy (Graph.shuttle : Graph (Exact ℚ))).minima
  refine ⟨Graph.shuttle_wellFormed, minima, ?_⟩
  rcases preprocess_farthestFirst Graph.shuttle_wellFormed minima 3 with ⟨found, chosen⟩
  rcases found (fun _ _ => rfl) with ⟨landmarks, preprocessed⟩
  rcases chosen landmarks preprocessed with ⟨nodup, -, farthest, -, -, complete⟩
  refine ⟨landmarks, preprocessed, nodup, complete ?_ ?_, farthest⟩
  · intro origin originInside destination destinationInside
    exact Graph.shuttle_walk originInside destinationInside
  · intro link _
    rw [CostModel.gated]
    dsimp only
    split_ifs <;> rfl

end Landmarks

end JourneyTimes
