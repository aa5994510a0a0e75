import JourneyTimes.Proofs.Search.Shadow

/-!
# What a search up to a distance settles

A search up to a distance settles what is within it.  It settles nothing else
exactly if no node beyond it has a shortcut: a way from the nodes within it that
is the best of those they offer, and not too long.  A node beyond the distance
has a better way, of course, but that leads over another node beyond it.
-/

namespace JourneyTimes.Search

/-- A node beyond a limit has a shortcut if the best label that the nodes within the
limit offer it is within the limit. -/
def HasShortcut {K : Type} [Field K] [LinearOrder K] [FloorRing K] [Trigonometry K]
    (query : Query (Exact K)) (labels : Nat → Label (Exact K)) (settled : List Nat)
    (limit : Exact K) (node : Nat) : Prop :=
  ¬ (labels node).distance < limit ∧
    (query.bestOf labels (nodesWithin labels limit settled) node).distance < limit

variable {K : Type} [Field K] [LinearOrder K] [FloorRing K] [Trigonometry K]
  [IsStrictOrderedRing K] {query : Query (Exact K)} {limit : Exact K}
  {whole part : State (Exact K)}

omit [IsStrictOrderedRing K] in
theorem Shadows.bestOf_eq (shadows : Shadows query limit whole part) {origins : List Nat}
    (near : ∀ origin ∈ origins, (whole.labels.get origin).distance < limit) (node : Nat) :
    query.bestOf part.labels.get origins node = query.bestOf whole.labels.get origins node :=
  bestOf_congr query (fun origin member => shadows.same origin (near origin member)) node

omit [IsStrictOrderedRing K] in
theorem Chronicled.ne_source_of_beyond (wholeOk : Chronicled query whole)
    (positive : 0 < limit) {node : Nat} (beyond : ¬ (whole.labels.get node).distance < limit) :
    node ≠ query.source := by
  rintro rfl
  apply beyond
  have distance : (whole.labels.get query.source).distance = 0 :=
    congrArg Arrival.distance wholeOk.origin
  rwa [distance]

section

variable (shadows : Shadows query limit whole part) (wholeOk : Chronicled query whole)
  (partOk : Chronicled query part) (positive : 0 < limit)
  (marked : Marked (query.withBounds (.maxDistance limit)) part)

include shadows wholeOk partOk positive marked

omit [IsStrictOrderedRing K] in
/-- If the shadow has settled nothing beyond the limit, then there is no shortcut. -/
theorem Shadows.not_hasShortcut (exhausted : part.frontier.pop? = none)
    (only : ∀ node, (part.labels.get node).settled = true →
      (whole.labels.get node).distance < limit) (node : Nat) :
    ¬ HasShortcut query whole.labels.get whole.settled.toList limit node := by
  rintro ⟨beyond, within⟩
  have near : ∀ other ∈ part.settled.toList, (whole.labels.get other).distance < limit := by
    intro other member
    exact only other ((partOk.mem_iff other).mp member)
  have offered := partOk.offered node (wholeOk.ne_source_of_beyond positive beyond)
  rw [← shadows.order, nodesWithin_eq_self near, ← shadows.bestOf_eq near,
    ← Label.distance_congr offered] at within
  have found : IsFound query part node := by
    by_contra unfound
    rw [partOk.unknown node unfound] at within
    exact Exact.not_infinity_lt limit within
  have pruned : (part.labels.get node).pruned = true := by
    by_contra unpruned
    have unsettled : (part.labels.get node).settled = false := by
      rw [← Bool.not_eq_true]
      exact fun settled => beyond (only node settled)
    exact partOk.not_waiting exhausted node
      ⟨found, unsettled, Bool.eq_false_iff.mpr unpruned⟩
  have farther : limit ≤ (part.labels.get node).distance :=
    of_decide_eq_true ((marked node).1 pruned)
  exact Exact.not_lt_of_le farther within

/-- The first node beyond the limit that the shadow settles has a shortcut. -/
theorem Shadows.exists_hasShortcut (plain : query.IsPlain)
    (lengths : query.graph.HasNonnegativeLengths) {node : Nat}
    (settled : (part.labels.get node).settled = true)
    (beyond : ¬ (whole.labels.get node).distance < limit) :
    ∃ first, HasShortcut query whole.labels.get whole.settled.toList limit first := by
  have some : (part.settled.toList.find? fun other =>
      ¬ (whole.labels.get other).distance < limit).isSome = true :=
    List.find?_isSome.mpr ⟨node, (partOk.mem_iff node).mpr settled, decide_eq_true beyond⟩
  rcases Option.isSome_iff_exists.mp some with ⟨first, firstEq⟩
  rcases List.find?_eq_some_iff_append.mp firstEq with ⟨firstBeyond, before, after, split, earlier⟩
  have firstBeyond := of_decide_eq_true firstBeyond
  have near : ∀ other ∈ before, (whole.labels.get other).distance < limit := by
    intro other member
    simpa using earlier other member
  have kept : nodesWithin whole.labels.get limit part.settled.toList =
      before ++ nodesWithin whole.labels.get limit after := by
    rw [split, nodesWithin_append, nodesWithin_eq_self near, nodesWithin_cons_of_not firstBeyond]
  have allNear : ∀ other ∈ nodesWithin whole.labels.get limit part.settled.toList,
      (whole.labels.get other).distance < limit :=
    fun other member => (mem_nodesWithin.mp member).2
  have recorded : ∀ other ∈ nodesWithin whole.labels.get limit after, other ∈ after :=
    fun other member => (mem_nodesWithin.mp member).1
  have best := partOk.bestOf_of_split plain split
    (wholeOk.ne_source_of_beyond positive firstBeyond) recorded
  refine ⟨first, firstBeyond, ?_⟩
  rw [← shadows.order, ← shadows.bestOf_eq allNear, kept, Label.distance_congr best]
  have firstSettled : (part.labels.get first).settled = true := by
    rw [← partOk.mem_iff, split]
    simp
  have notFarther : ¬ limit ≤ (part.labels.get first).distance :=
    of_decide_eq_false ((marked first).2 firstSettled)
  by_contra notWithin
  exact notFarther (Exact.le_of_not_lt
    (Exact.le_self_of_le (partOk.distance_nonneg lengths first))
    (Exact.le_self_of_le (Exact.le_of_lt positive)) notWithin)

/-- The shadow has settled nothing beyond the limit exactly if no node has a
shortcut. -/
theorem Shadows.settled_only_within_iff (plain : query.IsPlain)
    (lengths : query.graph.HasNonnegativeLengths)
    (exhausted : part.frontier.pop? = none) :
    (∀ node, (part.labels.get node).settled = true →
        (whole.labels.get node).distance < limit) ↔
      ∀ node, ¬ HasShortcut query whole.labels.get whole.settled.toList limit node := by
  constructor
  · exact shadows.not_hasShortcut wholeOk partOk positive marked exhausted
  · intro none node settled
    by_contra beyond
    rcases
        shadows.exists_hasShortcut wholeOk partOk positive marked plain lengths settled beyond with
      ⟨first, hasShortcut⟩
    exact none first hasShortcut

end

/-! ## Whole searches -/

section

variable (plain : query.IsPlain) {scratch : Scratch (Exact K)} {final : State (Exact K)}
  (blank : Blank query.graph.size scratch)

include plain blank

/-- The record of a search that waits for no targets. -/
theorem run_chronicled {bounds : SearchBounds (Exact K)} (noTargets : bounds.awaited = none)
    (ran : run (query.withBounds bounds) scratch = .ok final) : Chronicled query final :=
  chronicled_of_reaches_withBounds plain blank
    (run_reaches (plain.withBounds bounds).noGoal noTargets ran).1

/-- A search up to a distance settles what is within it only, exactly if no node has
a shortcut. -/
theorem run_settled_only_within_iff (lengths : query.graph.HasNonnegativeLengths)
    (steady : query.cost.IsSteady query.graph) (positive : 0 < limit)
    (ran : run (query.withBounds .unbounded) scratch = .ok final)
    {others : Scratch (Exact K)} {part : State (Exact K)}
    (othersBlank : Blank query.graph.size others)
    (othersRan : run (query.withBounds (.maxDistance limit)) others = .ok part) :
    (∀ node, (part.labels.get node).settled = true → (final.labels.get node).distance < limit) ↔
      ∀ node, ¬ HasShortcut query final.labels.get final.settled.toList limit node := by
  have shadows := run_shadows plain lengths steady limit blank othersBlank ran othersRan
  have wholeOk := run_chronicled plain blank rfl ran
  have partOk := run_chronicled plain othersBlank rfl othersRan
  have partPlain := plain.withBounds (.maxDistance limit)
  rcases run_reaches partPlain.noGoal rfl othersRan with ⟨reaches, exhausted⟩
  have marked := marked_of_reaches partPlain othersBlank reaches
  exact shadows.settled_only_within_iff wholeOk partOk positive marked plain lengths exhausted

end

end JourneyTimes.Search
