import JourneyTimes.Proofs.Graph.Walk
import JourneyTimes.Proofs.Search.Heap
import JourneyTimes.Search.Sweep

/-!
# A sweep leaves no link that would lower a score

The scores of a sweep are such that no link leads to a node with a lower score
than the node has: the score of its end is at most that of its start and its
minimum together.  While the sweep goes on this holds of the links of visited
nodes, because nodes are visited in the order of their scores.

Every link puts at most one entry on the heap, when its start is visited, so the
heap is empty before the fuel is gone.
-/

namespace JourneyTimes

variable {K : Type} [Field K] [LinearOrder K] [FloorRing K] [Trigonometry K]

namespace Sweep

/-! ## Relaxing one link -/

theorem getD_setIfInBounds {β : Type} (values : Array β) (position other : Nat)
    (value default : β) :
    (values.setIfInBounds position value).getD other default =
      if other = position ∧ position < values.size then value else values.getD other default := by
  rw [Array.getD_eq_getD_getElem?, Array.getElem?_setIfInBounds, Array.getD_eq_getD_getElem?]
  by_cases same : position = other
  · subst same
    by_cases inside : position < values.size
    · simp [inside]
    · simp [inside]
  · rw [if_neg same, if_neg fun both => same both.1.symm]

/-- A state in which the score of a node has been lowered. -/
def State.lower (state : State (Exact K)) (node : Nat) (total : Exact K) : State (Exact K) :=
  { state with
    scores := state.scores.setIfInBounds node total
    waiting := state.waiting.push node total }

variable {graph : Graph (Exact K)} {cost : CostModel (Exact K)} {direction : Graph.Direction}

/-- Everything that relaxing a link can do. -/
theorem relax_cases (cost : CostModel (Exact K)) (direction : Graph.Direction)
    (score : Exact K) (state : State (Exact K)) (link : Graph.Link (Exact K)) :
    state.isVisited (link.target direction) = true ∧
        relax cost direction score state link = state ∨
      relax cost direction score state link = { state with stray := true } ∨
      ¬ score + cost.minimum link < state.score (link.target direction) ∧
        relax cost direction score state link = state ∨
      state.isVisited (link.target direction) = false ∧
        score + cost.minimum link < state.score (link.target direction) ∧
        relax cost direction score state link =
          state.lower (link.target direction) (score + cost.minimum link) := by
  unfold relax
  dsimp only
  split_ifs with visited unpriced cheaper
  · exact .inl ⟨visited, rfl⟩
  · exact .inr (.inl rfl)
  · exact .inr (.inr (.inr ⟨by simpa using visited, cheaper, rfl⟩))
  · exact .inr (.inr (.inl ⟨cheaper, rfl⟩))

/-- What holds of a sweep that has relaxed the links of visited nodes, apart from
some links. -/
structure Sweeping (graph : Graph (Exact K)) (cost : CostModel (Exact K))
    (direction : Graph.Direction) (todo : List (Graph.Link (Exact K)))
    (state : State (Exact K)) : Prop where
  scores_size : state.scores.size = graph.size
  visited_size : state.visited.size = graph.size
  heap : state.waiting.WellFormed
  score_nonneg : ∀ node, 0 ≤ state.score node
  level : ∀ node < graph.size, state.isVisited node = true →
    ∀ entry ∈ state.waiting.entries, state.score node ≤ entry.score
  filed : ∀ node < graph.size, state.isVisited node = false →
    state.score node = .infinity ∨ ⟨state.score node, node⟩ ∈ state.waiting.entries
  lowest : ∀ entry ∈ state.waiting.entries, state.isVisited entry.node = false →
    state.score entry.node ≤ entry.score
  relaxed : state.stray = false → ∀ link ∈ graph.links, link ∉ todo →
    state.isVisited (link.start direction) = true →
    state.score (link.target direction) ≤
      state.score (link.start direction) + cost.minimum link

theorem Sweeping.score_lower {todo : List (Graph.Link (Exact K))} {state : State (Exact K)}
    (sweeping : Sweeping graph cost direction todo state) {node : Nat}
    (inside : node < graph.size) (total : Exact K) (other : Nat) :
    (state.lower node total).score other = if other = node then total else state.score other := by
  rw [State.score, State.lower, getD_setIfInBounds, sweeping.scores_size]
  simp only [inside, and_true]
  rfl

/-- A lower score is filed, and the links of visited nodes stay relaxed. -/
theorem Sweeping.lower {todo : List (Graph.Link (Exact K))} {state : State (Exact K)}
    (sweeping : Sweeping graph cost direction todo state) {node : Nat}
    (inside : node < graph.size) (unvisited : state.isVisited node = false) {total : K}
    (nonneg : 0 ≤ (total : Exact K)) (less : total < state.score node)
    (latest : ∀ other < graph.size, state.isVisited other = true →
      state.score other ≤ total) :
    Sweeping graph cost direction todo (state.lower node total) := by
  have scores := sweeping.score_lower inside (total : Exact K)
  have apart {other : Nat} (visited : state.isVisited other = true) : other ≠ node := by
    rintro rfl
    exact absurd (unvisited.symm.trans visited) Bool.false_ne_true
  refine ⟨by simpa [State.lower] using sweeping.scores_size, sweeping.visited_size,
    sweeping.heap.push _, ?_, ?_, ?_, ?_, ?_⟩
  · intro other
    rw [scores]
    split_ifs
    · exact nonneg
    · exact sweeping.score_nonneg other
  · intro other otherInside visited entry filed
    rw [scores, if_neg (apart visited)]
    rcases Heap.mem_push.mp filed with old | rfl
    · exact sweeping.level other otherInside visited entry old
    · exact latest other otherInside visited
  · intro other otherInside otherUnvisited
    rw [scores]
    split_ifs with isNode
    · exact .inr (Heap.mem_push.mpr (.inr (by rw [isNode])))
    · exact (sweeping.filed other otherInside otherUnvisited).imp id
        fun old => Heap.mem_push.mpr (.inl old)
  · intro entry filed entryUnvisited
    rw [scores]
    rcases Heap.mem_push.mp filed with old | rfl
    · have lowest := sweeping.lowest entry old entryUnvisited
      split_ifs with isNode
      · rw [isNode] at lowest
        exact Exact.le_trans (Exact.le_of_lt less) lowest
      · exact lowest
    · rw [if_pos rfl]
      exact Exact.le_self_of_le nonneg
  · intro noStray link member rest visited
    have before := sweeping.relaxed noStray link member rest visited
    rw [scores, scores, if_neg (apart visited)]
    split_ifs with isNode
    · rw [isNode] at before
      exact Exact.le_trans (Exact.le_of_lt less) before
    · exact before

/-- One link less is left to relax. -/
theorem Sweeping.done {link : Graph.Link (Exact K)} {todo : List (Graph.Link (Exact K))}
    {state : State (Exact K)} (sweeping : Sweeping graph cost direction (link :: todo) state)
    (improved : state.stray = false → state.score (link.target direction) ≤
      state.score (link.start direction) + cost.minimum link) :
    Sweeping graph cost direction todo state := by
  refine { sweeping with relaxed := ?_ }
  intro noStray other member rest visited
  by_cases equal : other = link
  · rw [equal]
    exact improved noStray
  · exact sweeping.relaxed noStray other member (by simp [rest, equal]) visited

variable [IsStrictOrderedRing K]

theorem Sweeping.relax (wellFormed : graph.WellFormed)
    (minima : cost.HasNonnegativeMinima graph) {link : Graph.Link (Exact K)}
    {todo : List (Graph.Link (Exact K))} {state : State (Exact K)}
    (sweeping : Sweeping graph cost direction (link :: todo) state)
    (member : link ∈ graph.links) {score : K}
    (atStart : state.score (link.start direction) = score)
    (visited : state.isVisited (link.start direction) = true)
    (latest : ∀ node < graph.size, state.isVisited node = true → state.score node ≤ score) :
    Sweeping graph cost direction todo (Sweep.relax cost direction score state link) := by
  have inside := wellFormed.target_lt member direction
  have totalLe := Exact.le_add_of_nonneg score (minima link member)
  have totalNonneg := Exact.le_trans (atStart ▸ sweeping.score_nonneg _) totalLe
  rcases relax_cases cost direction score state link with
    ⟨targetVisited, equal⟩ | equal | ⟨notLess, equal⟩ | ⟨unvisited, less, equal⟩
  · rw [equal]
    apply sweeping.done
    intro _
    rw [atStart]
    exact Exact.le_trans (latest _ inside targetVisited) totalLe
  · rw [equal]
    exact { sweeping with relaxed := fun noStray => nomatch noStray }
  · rw [equal]
    apply sweeping.done
    intro _
    rw [atStart]
    exact Exact.le_of_not_lt (Exact.le_self_of_le totalNonneg)
      (Exact.le_self_of_le (sweeping.score_nonneg _)) notLess
  · rw [equal]
    rcases Exact.finite_of_nonneg_of_lt totalNonneg less with ⟨total, -, totalEq⟩
    rw [totalEq] at less totalNonneg totalLe ⊢
    refine (sweeping.lower inside unvisited totalNonneg less fun other otherInside otherVisited =>
      Exact.le_trans (latest other otherInside otherVisited) totalLe).done ?_
    intro _
    have apart : link.start direction ≠ link.target direction := by
      intro same
      rw [same, unvisited] at visited
      cases visited
    rw [sweeping.score_lower inside, sweeping.score_lower inside, if_pos rfl, if_neg apart,
      atStart, totalEq]
    exact Exact.le_self_of_le totalNonneg

/-! ## Visiting a node -/

omit [IsStrictOrderedRing K] in
/-- Relaxing a link visits no node, leaves the scores of visited nodes, and puts
one entry on the heap at most. -/
theorem relax_frame {todo : List (Graph.Link (Exact K))} {state : State (Exact K)}
    (wellFormed : graph.WellFormed) (sweeping : Sweeping graph cost direction todo state)
    (score : Exact K) {link : Graph.Link (Exact K)} (member : link ∈ graph.links) :
    (Sweep.relax cost direction score state link).visited = state.visited ∧
      (∀ node, state.isVisited node = true →
        (Sweep.relax cost direction score state link).score node = state.score node) ∧
      (Sweep.relax cost direction score state link).waiting.entries.size ≤
        state.waiting.entries.size + 1 := by
  rcases relax_cases cost direction score state link with
    ⟨-, equal⟩ | equal | ⟨-, equal⟩ | ⟨unvisited, -, equal⟩
  · rw [equal]
    exact ⟨rfl, fun _ _ => rfl, Nat.le_succ _⟩
  · rw [equal]
    exact ⟨rfl, fun _ _ => rfl, Nat.le_succ _⟩
  · rw [equal]
    exact ⟨rfl, fun _ _ => rfl, Nat.le_succ _⟩
  · rw [equal]
    refine ⟨rfl, ?_, (Heap.size_push ..).le⟩
    intro node visited
    rw [sweeping.score_lower (wellFormed.target_lt member direction), if_neg]
    rintro rfl
    exact absurd (unvisited.symm.trans visited) Bool.false_ne_true

/-- All links of a node that has just been visited are relaxed, one by one. -/
theorem Sweeping.foldl_relax (wellFormed : graph.WellFormed)
    (minima : cost.HasNonnegativeMinima graph) {links : List (Graph.Link (Exact K))}
    {node : Nat} (inside : ∀ link ∈ links, link ∈ graph.links ∧ link.start direction = node)
    {state : State (Exact K)} (sweeping : Sweeping graph cost direction links state) {score : K}
    (atNode : state.score node = score) (visited : state.isVisited node = true)
    (latest : ∀ other < graph.size, state.isVisited other = true → state.score other ≤ score) :
    Sweeping graph cost direction []
        (links.foldl (Sweep.relax cost direction score) state) ∧
      (links.foldl (Sweep.relax cost direction score) state).visited = state.visited ∧
      (links.foldl (Sweep.relax cost direction score) state).waiting.entries.size ≤
        state.waiting.entries.size + links.length := by
  induction links generalizing state with
  | nil => exact ⟨sweeping, rfl, Nat.le_refl _⟩
  | cons link links ih =>
      rcases inside link (List.mem_cons_self ..) with ⟨member, leaves⟩
      rcases relax_frame wellFormed sweeping (score : Exact K) member with
        ⟨sameVisited, sameScores, size⟩
      have isVisited (other : Nat) :
          (Sweep.relax cost direction score state link).isVisited other =
            state.isVisited other := by
        rw [State.isVisited, sameVisited]
        rfl
      have first := sweeping.relax wellFormed minima member (leaves.symm ▸ atNode)
        (leaves.symm ▸ visited) latest
      obtain ⟨rest, restVisited, restSize⟩ := ih
        (fun other later => inside other (List.mem_cons_of_mem _ later)) first
        (by rw [sameScores node visited, atNode]) (by rw [isVisited, visited])
        (fun other otherInside otherVisited => by
          rw [isVisited] at otherVisited
          rw [sameScores other otherVisited]
          exact latest other otherInside otherVisited)
      refine ⟨rest, restVisited.trans sameVisited, restSize.trans ?_⟩
      rw [List.length_cons]
      omega

/-- Between two visits no link of a visited node is left to relax. -/
abbrev Swept (graph : Graph (Exact K)) (cost : CostModel (Exact K))
    (direction : Graph.Direction) (state : State (Exact K)) : Prop :=
  Sweeping graph cost direction [] state

/-- A state in which a node that came out of the heap has been visited. -/
def State.enter (state : State (Exact K)) (node : Nat) (rest : Heap (Exact K)) :
    State (Exact K) :=
  { state with
    waiting := rest
    visited := state.visited.setIfInBounds node true }

omit [IsStrictOrderedRing K] in
theorem Sweeping.isVisited_enter {todo : List (Graph.Link (Exact K))} {state : State (Exact K)}
    (sweeping : Sweeping graph cost direction todo state) {node : Nat}
    (inside : node < graph.size) (rest : Heap (Exact K)) (other : Nat) :
    (state.enter node rest).isVisited other =
      if other = node then true else state.isVisited other := by
  rw [State.isVisited, State.enter, getD_setIfInBounds, sweeping.visited_size]
  simp only [inside, and_true]
  rfl

theorem State.lt_of_unvisited {β : Type} {state : State β} {size node : Nat}
    (sized : state.visited.size = size) (unvisited : state.isVisited node = false) :
    node < size := by
  by_contra outside
  rw [State.isVisited, Array.getD_eq_getD_getElem?,
    Array.getElem?_eq_none (by rw [sized]; omega)] at unvisited
  cases unvisited

section Pop

variable {state : State (Exact K)} (swept : Swept graph cost direction state)
  {first : Heap.Entry (Exact K)} {rest : Heap (Exact K)}
  (popped : state.waiting.pop? = some (first, rest))

include swept popped

omit [IsStrictOrderedRing K] in
/-- An entry of a node that has been visited is dropped. -/
theorem Sweeping.drop (visited : state.isVisited first.node = true) :
    Swept graph cost direction { state with waiting := rest } := by
  have old {entry : Heap.Entry (Exact K)} (member : entry ∈ rest.entries) :
      entry ∈ state.waiting.entries := (Heap.mem_pop? popped).mpr (.inl member)
  refine { swept with
    heap := swept.heap.pop? popped
    level := fun node inside visited entry member =>
      swept.level node inside visited entry (old member)
    filed := ?_
    lowest := fun entry member => swept.lowest entry (old member) }
  intro node inside unvisited
  refine (swept.filed node inside unvisited).imp id ?_
  intro member
  rcases (Heap.mem_pop? popped).mp member with still | isFirst
  · exact still
  · have same : first.node = node := by rw [← isFirst]
    rw [same] at visited
    exact absurd (unvisited.symm.trans visited) Bool.false_ne_true

omit [IsStrictOrderedRing K] in
/-- The node that comes out has the score with which it comes out. -/
theorem Sweeping.score_first (inside : first.node < graph.size)
    (unvisited : state.isVisited first.node = false) :
    state.score first.node = first.score := by
  have member : first ∈ state.waiting.entries := (Heap.mem_pop? popped).mpr (.inr rfl)
  rcases swept.heap.finite first member with ⟨low, lowEq⟩
  have atMost := swept.lowest first member unvisited
  rcases swept.filed first.node inside unvisited with endless | filed
  · rw [endless, lowEq] at atMost
    simp [Exact.le_iff, Exact.isAtMost] at atMost
  · have atLeast := swept.heap.pop?_le popped _ filed
    rcases swept.heap.finite _ filed with ⟨score, scoreEq⟩
    dsimp only at scoreEq atLeast
    rw [scoreEq, lowEq, Exact.finite_le_finite] at atMost atLeast
    rw [scoreEq, lowEq, le_antisymm atMost atLeast]

omit [IsStrictOrderedRing K] in
/-- When a node is visited, its links are all that is left to relax. -/
theorem Sweeping.enter (wellFormed : graph.WellFormed) (inside : first.node < graph.size)
    (unvisited : state.isVisited first.node = false) :
    Sweeping graph cost direction (graph.linksAt direction first.node)
      (state.enter first.node rest) := by
  have old {entry : Heap.Entry (Exact K)} (member : entry ∈ rest.entries) :
      entry ∈ state.waiting.entries := (Heap.mem_pop? popped).mpr (.inl member)
  have visits := swept.isVisited_enter inside rest
  refine { swept with
    visited_size := by simpa [State.enter] using swept.visited_size
    heap := swept.heap.pop? popped
    level := ?_
    filed := ?_
    lowest := ?_
    relaxed := ?_ }
  · intro node nodeInside visited entry member
    rw [visits] at visited
    split_ifs at visited with isFirst
    · change state.score node ≤ entry.score
      rw [isFirst, swept.score_first popped inside unvisited]
      exact swept.heap.pop?_le popped entry (old member)
    · exact swept.level node nodeInside visited entry (old member)
  · intro node nodeInside nodeUnvisited
    rw [visits] at nodeUnvisited
    split_ifs at nodeUnvisited with isFirst
    refine (swept.filed node nodeInside nodeUnvisited).imp id ?_
    intro member
    rcases (Heap.mem_pop? popped).mp member with still | same
    · exact still
    · exact absurd (by rw [← same]) isFirst
  · intro entry member entryUnvisited
    rw [visits] at entryUnvisited
    split_ifs at entryUnvisited
    exact swept.lowest entry (old member) entryUnvisited
  · intro noStray link member rest visited
    rw [visits] at visited
    split_ifs at visited with isFirst
    · exact absurd ((wellFormed.mem_linksAt inside).mpr ⟨member, isFirst⟩) rest
    · exact swept.relaxed noStray link member List.not_mem_nil visited

/-- Visiting a node and relaxing its links leaves no link of a visited node to
relax. -/
theorem Sweeping.visit_node (wellFormed : graph.WellFormed)
    (minima : cost.HasNonnegativeMinima graph) (inside : first.node < graph.size)
    (unvisited : state.isVisited first.node = false) :
    Swept graph cost direction ((graph.linksAt direction first.node).foldl
        (Sweep.relax cost direction first.score) (state.enter first.node rest)) ∧
      ((graph.linksAt direction first.node).foldl
        (Sweep.relax cost direction first.score) (state.enter first.node rest)).visited =
        (state.enter first.node rest).visited ∧
      ((graph.linksAt direction first.node).foldl (Sweep.relax cost direction first.score)
        (state.enter first.node rest)).waiting.entries.size ≤
        rest.entries.size + (graph.linksAt direction first.node).length := by
  have member : first ∈ state.waiting.entries := (Heap.mem_pop? popped).mpr (.inr rfl)
  rcases swept.heap.finite first member with ⟨score, scoreEq⟩
  have visits := swept.isVisited_enter inside rest
  have entered := swept.enter popped wellFormed inside unvisited
  have latest : ∀ other < graph.size, (state.enter first.node rest).isVisited other = true →
      (state.enter first.node rest).score other ≤ score := by
    intro other otherInside visited
    change state.score other ≤ score
    rw [visits] at visited
    split_ifs at visited with isFirst
    · rw [isFirst, swept.score_first popped inside unvisited, scoreEq]
      exact Exact.finite_le_finite.mpr le_rfl
    · rw [← scoreEq]
      exact swept.level other otherInside visited first member
  rw [scoreEq]
  refine entered.foldl_relax wellFormed minima
    (fun link linkMember => (wellFormed.mem_linksAt inside).mp linkMember)
    ?_ (by rw [visits, if_pos rfl]) latest
  exact (swept.score_first popped inside unvisited).trans scoreEq

end Pop

/-! ## Whole sweeps -/

/-- What is left to do: entries to take from the heap, and links that may still
put one there. -/
def budget (graph : Graph (Exact K)) (direction : Graph.Direction) (state : State (Exact K)) :
    Nat :=
  state.waiting.entries.size +
    graph.links.toList.countP fun link => !state.isVisited (link.start direction)

omit [IsStrictOrderedRing K] in
/-- The links of a node that is visited no longer count as unvisited. -/
theorem Sweeping.countP_enter {todo : List (Graph.Link (Exact K))} {state : State (Exact K)}
    (sweeping : Sweeping graph cost direction todo state) (wellFormed : graph.WellFormed)
    {node : Nat} (inside : node < graph.size) (unvisited : state.isVisited node = false)
    (rest : Heap (Exact K)) :
    (graph.links.toList.countP fun link =>
        !(state.enter node rest).isVisited (link.start direction)) +
        (graph.linksAt direction node).length =
      graph.links.toList.countP fun link => !state.isVisited (link.start direction) := by
  rw [wellFormed.linksAt_eq direction inside, ← List.countP_eq_length_filter]
  induction graph.links.toList with
  | nil => rfl
  | cons link links ih =>
      rw [List.countP_cons, List.countP_cons, List.countP_cons, ← ih,
        sweeping.isVisited_enter inside rest]
      by_cases isNode : link.start direction = node
      · simp [isNode, unvisited]
        omega
      · simp [isNode]
        omega

/-- A sweep with enough fuel empties the heap. -/
theorem visit_swept (wellFormed : graph.WellFormed) (minima : cost.HasNonnegativeMinima graph)
    {fuel : Nat} {state : State (Exact K)} (swept : Swept graph cost direction state)
    (enough : budget graph direction state ≤ fuel) :
    Swept graph cost direction (visit graph cost direction fuel state) ∧
      (visit graph cost direction fuel state).waiting.entries = #[] := by
  induction fuel generalizing state with
  | zero =>
      refine ⟨swept, Array.size_eq_zero_iff.mp ?_⟩
      unfold budget at enough
      rw [visit]
      omega
  | succ fuel ih =>
      rw [visit]
      cases popped : state.waiting.pop? with
      | none => exact ⟨swept, Heap.eq_empty_of_pop? popped⟩
      | some pair =>
          rcases pair with ⟨first, rest⟩
          have size := Heap.size_pop? popped
          unfold budget at enough
          dsimp only
          split_ifs with visited
          · apply ih (swept.drop popped visited)
            change rest.entries.size + _ ≤ fuel
            change _ + (graph.links.toList.countP fun link =>
              !state.isVisited (link.start direction)) ≤ fuel
            omega
          · have unvisited : state.isVisited first.node = false :=
              Bool.eq_false_iff.mpr visited
            have inside : first.node < graph.size :=
              State.lt_of_unvisited swept.visited_size unvisited
            rcases swept.visit_node popped wellFormed minima inside unvisited with
              ⟨next, sameVisited, fewer⟩
            have count := swept.countP_enter wellFormed inside unvisited rest
            apply ih next
            have sameCount (link : Graph.Link (Exact K)) :
                ((graph.linksAt direction first.node).foldl
                    (Sweep.relax cost direction first.score)
                    (state.enter first.node rest)).isVisited (link.start direction) =
                  (state.enter first.node rest).isVisited (link.start direction) := by
              rw [State.isVisited, sameVisited]
              rfl
            change budget graph direction ((graph.linksAt direction first.node).foldl
              (Sweep.relax cost direction first.score) (state.enter first.node rest)) ≤ fuel
            simp only [budget, sameCount]
            omega

omit [IsStrictOrderedRing K] in
theorem score_start (graph : Graph (Exact K)) (root node : Nat) : (start graph root).score node =
    if node = root ∧ root < graph.size then 0 else Exact.infinity := by
  rw [State.score, start, getD_setIfInBounds, Array.size_replicate, Array.getD_eq_getD_getElem?,
    Array.getElem?_replicate]
  split_ifs <;> rfl

omit [IsStrictOrderedRing K] in
/-- Before a sweep the root is on the heap, and nothing is visited. -/
theorem swept_start (wellFormed : graph.WellFormed) (root : Nat) :
    Swept graph cost direction (start graph root) := by
  have unvisited (node : Nat) (inside : node < graph.size) :
      (start graph root).isVisited node = false := by
    rw [State.isVisited, start, Array.getD_eq_getD_getElem?, Array.getElem?_replicate,
      if_pos inside]
    rfl
  have entries {entry : Heap.Entry (Exact K)} :
      entry ∈ (start graph root).waiting.entries ↔ entry = ⟨0, root⟩ := by
    rw [start, Heap.mem_push]
    simp [Heap.empty]
  refine ⟨by simp [start], by simp [start], Heap.wellFormed_empty.push root, ?_, ?_, ?_, ?_, ?_⟩
  · intro node
    rw [score_start]
    split_ifs
    · exact Exact.finite_nonneg.mpr le_rfl
    · exact Exact.nonneg_iff.mpr (.inl rfl)
  · intro node inside visited
    rw [unvisited node inside] at visited
    cases visited
  · intro node inside _
    rw [score_start]
    split_ifs with isRoot
    · exact .inr (entries.mpr (by rw [isRoot.1]))
    · exact .inl rfl
  · intro entry member waits
    rcases entries.mp member with rfl
    rw [score_start]
    split_ifs with inside
    · exact Exact.finite_nonneg.mpr le_rfl
    · rw [State.isVisited, start, Array.getD_eq_getD_getElem?, Array.getElem?_replicate,
        if_neg fun less => inside ⟨rfl, less⟩] at waits
      cases waits
  · intro _ link member _ visited
    rw [unvisited _ (wellFormed.start_lt member direction)] at visited
    cases visited

/-- A sweep has enough fuel to empty the heap. -/
theorem run_swept (wellFormed : graph.WellFormed) (minima : cost.HasNonnegativeMinima graph)
    (root : Nat) :
    Swept graph cost direction (run graph cost direction root) ∧
      (run graph cost direction root).waiting.entries = #[] := by
  have enough : budget graph direction (start graph root) ≤ graph.links.size + 2 := by
    have one : (start graph root).waiting.entries.size = 1 := Heap.size_push ..
    have few := List.countP_le_length (l := graph.links.toList)
      (p := fun link => !(start graph root).isVisited (link.start direction))
    rw [Array.length_toList] at few
    rw [budget, one]
    omega
  exact visit_swept wellFormed minima (swept_start wellFormed root) enough

/-- No link leads to a node whose score it would lower. -/
theorem costs_relaxed (wellFormed : graph.WellFormed) (minima : cost.HasNonnegativeMinima graph)
    {root : Nat} {scores : Array (Exact K)} (done : costs graph cost direction root = .ok scores) :
    (∀ node, 0 ≤ scores.getD node Scalar.infinity) ∧ ∀ link ∈ graph.links,
      scores.getD (link.target direction) Scalar.infinity ≤
        scores.getD (link.start direction) Scalar.infinity + cost.minimum link := by
  unfold costs at done
  dsimp only at done
  split_ifs at done with stray
  cases done
  rcases run_swept wellFormed minima root with ⟨swept, emptied⟩
  refine ⟨swept.score_nonneg, ?_⟩
  intro link member
  cases visited : (run graph cost direction root).isVisited (link.start direction) with
  | true =>
      exact swept.relaxed (Bool.eq_false_iff.mpr stray) link member List.not_mem_nil visited
  | false =>
      -- Nobody comes to the start of the link, so it says nothing.
      rcases swept.filed _ (wellFormed.start_lt member direction) visited with endless | filed
      · change (run graph cost direction root).score _ ≤
          (run graph cost direction root).score _ + _
        have unreached : (run graph cost direction root).score (link.start direction) =
            .infinity := endless
        rw [unreached, Exact.infinity_add_of_nonneg (minima link member)]
        exact Exact.le_infinity_of_nonneg (swept.score_nonneg _)
      · rw [emptied] at filed
        exact absurd filed (Array.not_mem_empty _)

end Sweep

end JourneyTimes
