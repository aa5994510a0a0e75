import JourneyTimes.Proofs.Search.Once

/-!
# Path trees answer with a search

A path tree is made once and used again and again.  Whatever it has been asked
before, its labels can be reset, so the next query is answered by a search that
begins with nothing known.  Where the cost model prices every link, the search
is never given up.
-/

namespace JourneyTimes

variable {α : Type} [Scalar α]

namespace Search

/-- A search leaves labels that can be reset. -/
theorem valid_of_run {size : Nat} {query : Query α} {scratch : Scratch α} {final : State α}
    (valid : scratch.labels.Valid size) (ran : run query scratch = .ok final) :
    final.labels.Valid size := by
  refine run_keeps (fun state => state.labels.Valid size) ?_ ?_ ran (valid.depart _ _)
  · intro state next holds step
    cases step with
    | prune _ _ => exact holds.prune _
    | expand _ _ _ => exact valid_foldl_relax _ (holds.settle _)
  · intro state last holds ends
    cases ends with
    | exhausted _ => exact holds
    | arrived _ _ _ => exact holds.settle _

/-- A search that comes to an end is not given up where every link has a price. -/
theorem run_ok_of_loop {query : Query α}
    (priced : ∀ link ∈ query.graph.links, query.cost.prices link = true)
    {scratch : Scratch α} {final : State α}
    (ended : loop query (initial query scratch) = some final) : run query scratch = .ok final := by
  refine run_eq_ok.mpr ⟨ended, onPath_of_loop ?_ ended rfl⟩
  intro state next onPath step
  cases step with
  | prune _ _ => exact onPath
  | expand _ _ _ =>
      rw [Search.expand, foldl_relax_stray fun link member =>
        priced link (Graph.mem_links_of_mem_linksAt member)]
      exact onPath

/-- Where every link has a price, a search that has no last state never ends. -/
theorem endless_of_run {query : Query α}
    (priced : ∀ link ∈ query.graph.links, query.cost.prices link = true)
    {scratch : Scratch α} {error : Error} (refused : run query scratch = .error error) :
    error = .config .endless := by
  cases ended : loop query (initial query scratch) with
  | none =>
      rw [run, ended] at refused
      exact (Except.error.inj refused).symm
  | some final =>
      rw [run_ok_of_loop priced ended] at refused
      cases refused

end Search

namespace PathTree

/-- The path trees of a graph and a cost model, perhaps with landmarks, after
any number of queries. -/
inductive Used (graph : Graph α) (cost : CostModel α) :
    Option (Landmarks α) → PathTree α → Prop where
  | make : Used graph cost none (make graph cost)
  | withLandmarks (landmarks : Landmarks α) :
      Used graph cost (some landmarks) (withLandmarks graph cost landmarks)
  | calculate {landmarks : Option (Landmarks α)} {tree answered : PathTree α}
      {source : Nat} {start : α} {bounds : SearchBounds α}
      (used : Used graph cost landmarks tree)
      (done : tree.calculate source start bounds = .ok answered) :
      Used graph cost landmarks answered
  | calculatePath {landmarks : Option (Landmarks α)} {tree answered : PathTree α}
      {origin destination : Nat} {start : α} {path : Option (Path α)}
      (used : Used graph cost landmarks tree)
      (done : tree.calculatePath origin destination start = .ok (path, answered)) :
      Used graph cost landmarks answered

/-- What a path tree keeps from one query to the next. -/
structure Ready (graph : Graph α) (cost : CostModel α) (landmarks : Option (Landmarks α))
    (tree : PathTree α) : Prop where
  graph_eq : tree.graph = graph
  cost_eq : tree.cost = cost
  landmarks_eq : tree.landmarks = landmarks
  resettable : tree.scratch.labels.Valid graph.size

variable {graph : Graph α} {cost : CostModel α} {landmarks : Option (Landmarks α)}
  {tree : PathTree α}

theorem ready_make (graph : Graph α) (cost : CostModel α) (landmarks : Option (Landmarks α)) :
    Ready graph cost landmarks { make graph cost with landmarks } where
  graph_eq := rfl
  cost_eq := rfl
  landmarks_eq := rfl
  resettable := .make _

/-- A path tree that is asked searches with what its reset leaves, and keeps what the search
leaves. -/
theorem search_eq (tree : PathTree α) (source : Nat) (start : α) (bounds : SearchBounds α)
    (goal : Option Nat) :
    tree.search source start bounds goal =
      (Search.run (tree.query source start bounds goal) tree.scratch.reset).map fun final =>
        { tree.reset source start with scratch := final.toScratch } := by
  rw [PathTree.search]
  show Search.run (tree.query source start bounds goal) tree.scratch.reset >>= _ = _
  cases Search.run (tree.query source start bounds goal) tree.scratch.reset <;> rfl

theorem run_of_search {answered : PathTree α} {source : Nat} {start : α}
    {bounds : SearchBounds α} {goal : Option Nat}
    (done : tree.search source start bounds goal = .ok answered) :
    ∃ final, Search.run (tree.query source start bounds goal) tree.scratch.reset = .ok final ∧
      { tree.reset source start with scratch := final.toScratch } = answered := by
  rw [search_eq] at done
  cases ran : Search.run (tree.query source start bounds goal) tree.scratch.reset with
  | error error =>
      rw [ran] at done
      cases done
  | ok final =>
      rw [ran] at done
      exact ⟨final, rfl, Except.ok.inj done⟩

theorem endless_of_search (priced : ∀ link ∈ tree.graph.links, tree.cost.prices link = true)
    {source : Nat} {start : α} {bounds : SearchBounds α} {goal : Option Nat} {error : Error}
    (refused : tree.search source start bounds goal = .error error) :
    error = .config .endless := by
  rw [search_eq] at refused
  cases ran : Search.run (tree.query source start bounds goal) tree.scratch.reset with
  | ok final =>
      rw [ran] at refused
      cases refused
  | error reason =>
      rw [ran] at refused
      obtain rfl : reason = error := Except.error.inj refused
      exact Search.endless_of_run priced ran

theorem endless_of_findPath {node : Nat} {error : Error}
    (refused : tree.findPath node = .error error) : error = .config .endless := by
  rw [findPath] at refused
  split at refused
  · cases refused
  · split_ifs at refused
    exact (Except.error.inj refused).symm

theorem Ready.search {answered : PathTree α} {source : Nat} {start : α}
    {bounds : SearchBounds α} {goal : Option Nat} (ready : Ready graph cost landmarks tree)
    (done : tree.search source start bounds goal = .ok answered) :
    Ready graph cost landmarks answered := by
  rcases run_of_search done with ⟨final, ran, rfl⟩
  exact ⟨ready.graph_eq, ready.cost_eq, ready.landmarks_eq,
    Search.valid_of_run ready.resettable.reset ran⟩

theorem search_of_calculate {answered : PathTree α} {source : Nat} {start : α}
    {bounds : SearchBounds α} (done : tree.calculate source start bounds = .ok answered) :
    tree.search source start bounds none = .ok answered := by
  unfold PathTree.calculate at done
  rcases bind_eq_ok.mp done with ⟨-, -, done⟩
  rcases bind_eq_ok.mp done with ⟨-, -, done⟩
  exact done

/-- Ways from a node that the graph does not have are refused. -/
theorem lt_of_calculate {answered : PathTree α} {source : Nat} {start : α}
    {bounds : SearchBounds α} (done : tree.calculate source start bounds = .ok answered) :
    source < tree.graph.size := by
  rcases bind_eq_ok.mp done with ⟨_, checked, -⟩
  exact Graph.lt_of_checkNode checked

theorem calculate_eq_search {source : Nat}
    (inside : source < tree.graph.size) (start : α) {bounds : SearchBounds α}
    (targets : tree.checkTargets bounds = .ok ()) :
    tree.calculate source start bounds = tree.search source start bounds none := by
  simp [calculate, Graph.checkNode, inside, targets, bind, Except.bind]

theorem searchPath_of_calculatePath {answered : PathTree α} {origin destination : Nat}
    {start : α} {path : Option (Path α)}
    (done : tree.calculatePath origin destination start = .ok (path, answered)) :
    tree.searchPath origin destination start = .ok answered ∧
      answered.findPath destination = .ok path := by
  unfold PathTree.calculatePath at done
  rcases bind_eq_ok.mp done with ⟨-, -, done⟩
  rcases bind_eq_ok.mp done with ⟨-, -, done⟩
  rcases bind_eq_ok.mp done with ⟨found, searched, done⟩
  rcases bind_eq_ok.mp done with ⟨reported, reports, done⟩
  cases done
  exact ⟨searched, reports⟩

theorem search_of_searchPath {answered : PathTree α} {origin destination : Nat} {start : α}
    (done : tree.searchPath origin destination start = .ok answered) :
    ∃ bounds goal, tree.search origin start bounds goal = .ok answered := by
  unfold PathTree.searchPath at done
  split_ifs at done with guided
  · exact ⟨_, _, done⟩
  · exact ⟨_, _, done⟩

/-- However often a path tree has been used, it is ready for the next query. -/
theorem Used.ready (used : Used graph cost landmarks tree) :
    Ready graph cost landmarks tree := by
  induction used with
  | make => exact ready_make graph cost none
  | withLandmarks landmarks => exact ready_make graph cost (some landmarks)
  | calculate _ done ih => exact ih.search (search_of_calculate done)
  | calculatePath _ done ih =>
      rcases search_of_searchPath (searchPath_of_calculatePath done).1 with
        ⟨bounds, goal, searched⟩
      exact ih.search searched

/-- The query that a path tree puts to a search, whatever it was asked before. -/
def queryOn (graph : Graph α) (cost : CostModel α) (landmarks : Option (Landmarks α))
    (source : Nat) (start : α) (bounds : SearchBounds α) (goal : Option Nat) :
    Search.Query α :=
  query { make graph cost with landmarks } source start bounds goal

/-- A path tree that has the last state of a search for an answer. -/
structure Answers (query : Search.Query α) (final : Search.State α) (tree : PathTree α) :
    Prop where
  graph_eq : tree.graph = query.graph
  scratch_eq : tree.scratch = final.toScratch
  start_eq : tree.startTime = query.start

omit [Scalar α] in
theorem Answers.label_eq {query : Search.Query α} {final : Search.State α}
    (answers : Answers query final tree) (node : Nat) :
    tree.label node = final.labels.get node := by
  rw [label, answers.scratch_eq]

omit [Scalar α] in
theorem Answers.reached_eq {query : Search.Query α} {final : Search.State α}
    (answers : Answers query final tree) : tree.reached = final.settled := by
  rw [reached, answers.scratch_eq]

omit [Scalar α] in
/-- A path tree reports what its search has settled, unless it is pruned. -/
theorem Answers.isReached_eq {query : Search.Query α} {final : Search.State α}
    (answers : Answers query final tree) {node : Nat} (inside : node < query.graph.size)
    (unpruned : (final.labels.get node).pruned = false) :
    tree.isReached node = (final.labels.get node).settled := by
  rw [isReached, answers.label_eq, answers.graph_eq, unpruned]
  simp [inside]

omit [Scalar α] in
theorem isSome_cost? (tree : PathTree α) (node : Nat) :
    (tree.cost? node).isSome = tree.isReached node := by
  rw [cost?]
  cases tree.isReached node <;> rfl

omit [Scalar α] in
theorem exists_time?_of_cost? {node : Nat} {spent : α} (found : tree.cost? node = some spent) :
    ∃ time, tree.time? node = some time := by
  have isReached : tree.isReached node = true := by
    rw [← isSome_cost?, found]
    rfl
  exact ⟨_, if_pos isReached⟩

omit [Scalar α] in
theorem settled_of_isReached {node : Nat} (isReached : tree.isReached node = true) :
    (tree.label node).settled = true := by
  simp only [PathTree.isReached, Bool.and_eq_true] at isReached
  exact isReached.1.2

omit [Scalar α] in
/-- A path tree reports exactly what its search has settled, if that is nothing but
nodes which are not pruned. -/
theorem Answers.isReached_iff_of_settled {query : Search.Query α} {final : Search.State α}
    (answers : Answers query final tree) {node : Nat}
    (remains : (final.labels.get node).settled = true →
      node < query.graph.size ∧ (final.labels.get node).pruned = false) :
    tree.isReached node = true ↔ (final.labels.get node).settled = true := by
  constructor
  · intro isReached
    rw [← answers.label_eq]
    exact settled_of_isReached isReached
  · intro settled
    rcases remains settled with ⟨inside, unpruned⟩
    rw [answers.isReached_eq inside unpruned]
    exact settled

/-- A path tree answers with a search that begins with nothing known. -/
theorem Ready.answers_of_search (ready : Ready graph cost landmarks tree)
    {answered : PathTree α} {source : Nat} {start : α} {bounds : SearchBounds α}
    {goal : Option Nat} (done : tree.search source start bounds goal = .ok answered) :
    ∃ scratch final, Search.Blank graph.size scratch ∧
      Search.run (queryOn graph cost landmarks source start bounds goal) scratch = .ok final ∧
      Answers (queryOn graph cost landmarks source start bounds goal) final answered := by
  rcases ready with ⟨rfl, rfl, rfl, resettable⟩
  rcases run_of_search done with ⟨final, ran, rfl⟩
  exact ⟨tree.scratch.reset, final, .reset resettable, ran, rfl, rfl, rfl⟩

/-- Where every link has a price, and the search comes to an end, a path tree answers, whatever
it was asked before. -/
theorem Ready.search_ok (ready : Ready graph cost landmarks tree)
    (priced : ∀ link ∈ graph.links, cost.prices link = true) (source : Nat) (start : α)
    (bounds : SearchBounds α) (goal : Option Nat)
    (ends : ∀ {scratch}, Search.Blank graph.size scratch → ∃ final,
      Search.loop (queryOn graph cost landmarks source start bounds goal)
        (Search.initial (queryOn graph cost landmarks source start bounds goal) scratch) =
        some final) :
    ∃ scratch final answered, Search.Blank graph.size scratch ∧
      Search.run (queryOn graph cost landmarks source start bounds goal) scratch = .ok final ∧
      tree.search source start bounds goal = .ok answered ∧
      Answers (queryOn graph cost landmarks source start bounds goal) final answered := by
  rcases ready with ⟨rfl, rfl, rfl, resettable⟩
  rcases ends (.reset resettable) with ⟨final, ended⟩
  have ran : Search.run (tree.query source start bounds goal) tree.scratch.reset = .ok final :=
    Search.run_ok_of_loop priced ended
  rw [search_eq, ran]
  exact ⟨tree.scratch.reset, final, _, .reset resettable, ran, rfl, rfl, rfl, rfl⟩

omit [Scalar α] in
/-- Targets that the graph has are accepted. -/
theorem checkTargets_ok {bounds : SearchBounds α}
    (known : ∀ targets ∈ bounds.awaited, ∀ target ∈ targets, target < tree.graph.size) :
    tree.checkTargets bounds = .ok () := by
  cases bounds with
  | targets nodes => exact Graph.forM_checkNode (known nodes rfl)
  | unbounded => rfl
  | maxDistance _ => rfl
  | maxTravelTime _ => rfl

/-- Whatever a path tree was asked before, it finds ways from a node of its graph, to targets
that its graph has. -/
theorem Used.calculate_ok (used : Used graph cost landmarks tree) (wellFormed : graph.WellFormed)
    (priced : ∀ link ∈ graph.links, cost.prices link = true) {source : Nat}
    (inside : source < graph.size) (start : α) (bounds : SearchBounds α)
    (known : ∀ targets ∈ bounds.awaited, ∀ target ∈ targets, target < graph.size) :
    ∃ scratch final answered, Search.Blank graph.size scratch ∧
      Search.run (queryOn graph cost landmarks source start bounds none) scratch = .ok final ∧
      tree.calculate source start bounds = .ok answered ∧
      Answers (queryOn graph cost landmarks source start bounds none) final answered := by
  have ready := used.ready
  rcases ready.search_ok priced source start bounds none
    (fun blank => Search.loop_ends_of_noGoal wellFormed inside rfl blank) with
    ⟨scratch, final, answered, blank, ran, searched, answers⟩
  rw [← ready.graph_eq] at inside known
  exact ⟨scratch, final, answered, blank, ran,
    (calculate_eq_search inside start (checkTargets_ok known)).trans searched, answers⟩

end PathTree

end JourneyTimes
