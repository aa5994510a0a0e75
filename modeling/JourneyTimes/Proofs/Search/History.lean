import JourneyTimes.Proofs.Graph.WellFormed
import JourneyTimes.Proofs.Scalar.Exact
import JourneyTimes.Proofs.Search.FoundPath
import JourneyTimes.Proofs.Search.Fresh
import JourneyTimes.Proofs.Search.Guided

/-!
# Path trees in place

A path tree is changed in place by whoever uses it.  Here the two kinds of requests
are programs on one tree.  A request first looks up the nodes that it names, and is
refused if one of them does not exist.  Then it resets the labels, the frontier and the
list of settled nodes that the request before has left, and only then it searches.

A request that is answered leaves what a search leaves that begins with nothing known,
and one that is refused leaves the tree as it was.  What can be read off a tree after a
request is therefore the same as if the tree had never been asked anything else.

Where costs are negative, a search for a goal may go on for ever.  Nobody asks a tree
anything after such a request, and whether a request is one does not depend on what the
tree was asked before.
-/

namespace JourneyTimes.PathTree

open Scalar (Accumulates)

variable {α : Type} [Scalar α]

/-- What a path tree can be asked. -/
inductive Request (α : Type) where
  | calculate (source : Nat) (start : α) (bounds : SearchBounds α)
  | path (origin destination : Nat) (start : α)

namespace Request

/-- The nodes that a request names. -/
def named : Request α → List Nat
  | .calculate source _ (.targets nodes) => source :: nodes
  | .calculate source _ _ => [source]
  | .path origin destination _ => [origin, destination]

/-- Where the search for a request begins. -/
def source : Request α → Nat
  | .calculate source _ _ => source
  | .path origin _ _ => origin

/-- When the search for a request begins. -/
def start : Request α → α
  | .calculate _ start _ => start
  | .path _ _ start => start

/-- Where the search for a request ends, with landmarks or without. -/
def bounds (guided : Bool) : Request α → SearchBounds α
  | .calculate _ _ bounds => bounds
  | .path _ destination _ => if guided then .unbounded else .targets [destination]

/-- What the search for a request is guided to, with landmarks or without. -/
def goal (guided : Bool) : Request α → Option Nat
  | .calculate _ _ _ => none
  | .path _ destination _ => if guided then some destination else none

/-- What a request reads off the tree after the search: a path, if it asks for one. -/
def answer (tree : PathTree α) : Request α → Except Error (Option (Path α))
  | .calculate _ _ _ => pure none
  | .path _ destination _ => tree.findPath destination

/-- The search for a request has no goal, or meets no negative costs. -/
def IsTame (graph : Graph α) (cost : CostModel α) (guided : Bool) (request : Request α) : Prop :=
  request.goal guided = none ∨
    Accumulates α ∧ cost.IsNonnegativeFrom graph request.source request.start

/-- The answer to a request, and the tree that is left of it. -/
def ask (tree : PathTree α) : Request α → Except Error (Option (Path α) × PathTree α)
  | .calculate source start bounds => do
    let answered ← tree.calculate source start bounds
    pure (none, answered)
  | .path origin destination start => tree.calculatePath origin destination start

end Request

/-! ## Requests in place -/

/-- Reset what the request before has left, and search. -/
def searchInPlace (source : Nat) (start : α) (bounds : SearchBounds α) (goal : Option Nat) :
    EStateM Error (PathTree α) Unit := do
  modify (·.reset source start)
  let tree ← get
  let final ← MonadExcept.ofExcept (Search.run (tree.query source start bounds goal) tree.scratch)
  set { tree with scratch := final.toScratch }

/-- Answer a request in place, unless it names a node that does not exist. -/
def Request.perform (request : Request α) : EStateM Error (PathTree α) (Option (Path α)) := do
  let tree ← get
  MonadExcept.ofExcept (request.named.forM tree.graph.checkNode)
  let guided := tree.landmarks.isSome
  searchInPlace request.source request.start (request.bounds guided) (request.goal guided)
  let answered ← get
  MonadExcept.ofExcept (request.answer answered)

/-- The tree that is left of a request, if the request comes to an end. -/
def after? (tree : PathTree α) (request : Request α) : Option (PathTree α) :=
  match request.perform tree with
  | .ok _ answered => some answered
  | .error (.config .endless) _ => none
  | .error _ refused => some refused

/-! ## What can be read off a tree -/

/-- Nothing that can be read off two path trees tells them apart. -/
structure ShowsSame (left right : PathTree α) : Prop where
  source_eq : left.source = right.source
  start_eq : left.startTime = right.startTime
  reached_eq : left.reached = right.reached
  time?_eq : ∀ node, left.time? node = right.time? node
  cost?_eq : ∀ node, left.cost? node = right.cost? node
  distance?_eq : ∀ node, left.distance? node = right.distance? node
  findPath_eq : ∀ node, left.findPath node = right.findPath node

theorem ShowsSame.refl (tree : PathTree α) : ShowsSame tree tree :=
  ⟨rfl, rfl, rfl, fun _ => rfl, fun _ => rfl, fun _ => rfl, fun _ => rfl⟩

variable {left right tree : PathTree α}

theorem Alike.showsSame (alike : Alike left right) (sources : left.source = right.source) :
    ShowsSame left right where
  source_eq := sources
  start_eq := alike.start_eq
  reached_eq := alike.reached_eq
  time?_eq := alike.time?_eq
  cost?_eq node := by rw [cost?, cost?, alike.isReached_eq, alike.label_eq]
  distance?_eq node := by rw [distance?, distance?, alike.isReached_eq, alike.label_eq]
  findPath_eq node := alike.findPath_eq node

theorem ShowsSame.answer_eq (same : ShowsSame left right) (request : Request α) :
    request.answer left = request.answer right := by
  cases request with
  | calculate _ _ _ => rfl
  | path _ destination _ => exact same.findPath_eq destination

/-! ## A request is one search -/

/-- A request that names only nodes of the graph is answered by a search. -/
theorem Request.ask_eq (request : Request α) (tree : PathTree α) :
    request.ask tree = (do
      request.named.forM tree.graph.checkNode
      let answered ← tree.search request.source request.start
        (request.bounds tree.landmarks.isSome) (request.goal tree.landmarks.isSome)
      pure (← request.answer answered, answered)) := by
  cases request with
  | calculate source start bounds =>
      cases bounds <;>
        simp [ask, named, Request.source, Request.start, Request.bounds, goal, answer,
          PathTree.calculate, checkTargets]
  | path origin destination start =>
      cases guided : tree.landmarks.isSome <;>
        simp [ask, named, Request.source, Request.start, Request.bounds, goal, answer,
          PathTree.calculatePath, searchPath, guided]

/-- A search in place resets the tree, and comes to the same end as a search. -/
theorem searchInPlace_eq (source : Nat) (start : α) (bounds : SearchBounds α)
    (goal : Option Nat) (tree : PathTree α) :
    searchInPlace source start bounds goal tree =
      match tree.search source start bounds goal with
      | .ok answered => .ok () answered
      | .error error => .error error (tree.reset source start) := by
  rw [search_eq]
  -- the reset tree asks what the tree before it asked, so both run the same search
  show EStateM.bind (MonadExcept.ofExcept
    (Search.run (tree.query source start bounds goal) tree.scratch.reset)) _ _ = _
  cases Search.run (tree.query source start bounds goal) tree.scratch.reset <;> rfl

/-- A request that names a node which does not exist is refused and leaves the tree as it
was. -/
theorem Request.perform_of_error {request : Request α} {error : Error}
    (checked : request.named.forM tree.graph.checkNode = .error error) :
    request.ask tree = .error error ∧ request.perform tree = .error error tree := by
  constructor
  · rw [Request.ask_eq, checked]
    rfl
  · show EStateM.bind (MonadExcept.ofExcept (request.named.forM tree.graph.checkNode)) _ tree = _
    rw [checked]
    rfl

/-- A request that names only nodes of the graph is answered in place as it is elsewhere. -/
theorem Request.perform_of_ok {request : Request α}
    (checked : request.named.forM tree.graph.checkNode = .ok ()) :
    (∃ path answered, request.ask tree = .ok (path, answered) ∧
        request.perform tree = .ok path answered) ∨
      ∃ error left, request.ask tree = .error error ∧ request.perform tree = .error error left := by
  have performed : request.perform tree =
      match tree.search request.source request.start (request.bounds tree.landmarks.isSome)
        (request.goal tree.landmarks.isSome) with
      | .ok answered => (MonadExcept.ofExcept (request.answer answered) :
          EStateM Error (PathTree α) (Option (Path α))) answered
      | .error error => .error error (tree.reset request.source request.start) := by
    show EStateM.bind (MonadExcept.ofExcept (request.named.forM tree.graph.checkNode)) _ tree = _
    rw [checked]
    show EStateM.bind (searchInPlace _ _ (request.bounds tree.landmarks.isSome)
      (request.goal tree.landmarks.isSome)) _ tree = _
    rw [EStateM.bind, searchInPlace_eq]
    cases tree.search request.source request.start (request.bounds tree.landmarks.isSome)
      (request.goal tree.landmarks.isSome) <;> rfl
  rw [performed, Request.ask_eq, checked, ok_bind]
  cases tree.search request.source request.start (request.bounds tree.landmarks.isSome)
      (request.goal tree.landmarks.isSome) with
  | error error => exact .inr ⟨error, _, rfl, rfl⟩
  | ok answered =>
      rw [ok_bind]
      dsimp only
      cases request.answer answered with
      | error error => exact .inr ⟨error, answered, rfl, rfl⟩
      | ok path => exact .inl ⟨path, answered, rfl, rfl⟩

/-- What is answered in place is answered elsewhere, and the same is left. -/
theorem Request.perform_eq_ok {request : Request α} {path : Option (Path α)}
    {answered : PathTree α} :
    request.perform tree = .ok path answered ↔ request.ask tree = .ok (path, answered) := by
  cases checked : request.named.forM tree.graph.checkNode with
  | error error =>
      rcases perform_of_error checked with ⟨asked, performed⟩
      rw [asked, performed]
      constructor <;> rintro ⟨⟩
  | ok _ =>
      rcases perform_of_ok checked with ⟨_, _, asked, performed⟩ | ⟨_, _, asked, performed⟩
      · rw [asked, performed]
        constructor <;> (rintro ⟨⟩; rfl)
      · rw [asked, performed]
        constructor <;> rintro ⟨⟩

variable {graph : Graph α} {cost : CostModel α} {landmarks : Option (Landmarks α)}

/-- Where every link has a price, a request that names only nodes of the graph is answered if
it ever ends. -/
theorem Ready.eq_endless (ready : Ready graph cost landmarks tree)
    (priced : ∀ link ∈ graph.links, cost.prices link = true) {request : Request α}
    (checked : request.named.forM tree.graph.checkNode = .ok ()) {error : Error}
    (refused : request.ask tree = .error error) : error = .config .endless := by
  rcases ready with ⟨rfl, rfl, -, -⟩
  rw [Request.ask_eq, checked, ok_bind] at refused
  cases searched : tree.search request.source request.start
      (request.bounds tree.landmarks.isSome) (request.goal tree.landmarks.isSome) with
  | error reason =>
      rw [searched] at refused
      obtain rfl : reason = error := Except.error.inj refused
      exact endless_of_search priced searched
  | ok answered =>
      rw [searched, ok_bind] at refused
      cases request with
      | calculate _ _ _ => cases refused
      | path _ destination _ =>
          rw [Request.answer] at refused
          cases reported : answered.findPath destination with
          | ok path =>
              rw [reported] at refused
              cases refused
          | error reason =>
              rw [reported] at refused
              obtain rfl : reason = error := Except.error.inj refused
              exact endless_of_findPath reported

/-- Whatever path trees were asked before, a request is refused by both of them, or has one
answer, and nothing tells apart what it leaves. -/
theorem Ready.ask_alike (leftReady : Ready graph cost landmarks left)
    (rightReady : Ready graph cost landmarks right) (request : Request α) :
    (∃ error, request.ask left = .error error ∧ request.ask right = .error error) ∨
      ∃ path first second, request.ask left = .ok (path, first) ∧
        request.ask right = .ok (path, second) ∧ ShowsSame first second := by
  rw [Request.ask_eq, Request.ask_eq, leftReady.graph_eq, rightReady.graph_eq,
    leftReady.landmarks_eq, rightReady.landmarks_eq]
  cases request.named.forM graph.checkNode with
  | error error => exact .inl ⟨error, rfl, rfl⟩
  | ok _ =>
      rw [ok_bind, ok_bind]
      rcases leftReady.search_alike rightReady request.source request.start
          (request.bounds landmarks.isSome) (request.goal landmarks.isSome) with
        ⟨error, leftRefused, rightRefused⟩ | ⟨first, second, leftDone, rightDone, alike, sources⟩
      · rw [leftRefused, rightRefused]
        exact .inl ⟨error, rfl, rfl⟩
      · have same := alike.showsSame sources
        rw [leftDone, rightDone, ok_bind, ok_bind, same.answer_eq request]
        cases request.answer second with
        | error error => exact .inl ⟨error, rfl, rfl⟩
        | ok path => exact .inr ⟨path, first, second, rfl, rfl, same⟩

/-! ## Histories -/

theorem Used.ask {answered : PathTree α} {request : Request α} {path : Option (Path α)}
    (used : Used graph cost landmarks tree) (done : request.ask tree = .ok (path, answered)) :
    Used graph cost landmarks answered := by
  cases request with
  | calculate source start bounds =>
      rcases bind_eq_ok.mp done with ⟨found, calculated, done⟩
      cases done
      exact used.calculate calculated
  | path origin destination start => exact used.calculatePath done

/-- A request that ends and is refused names a node that does not exist. -/
theorem Used.perform_refused (used : Used graph cost landmarks tree)
    (priced : ∀ link ∈ graph.links, cost.prices link = true) {request : Request α}
    {error : Error} {refused : PathTree α}
    (performed : request.perform tree = .error error refused)
    (finite : error ≠ .config .endless) :
    request.ask tree = .error error ∧ refused = tree ∧
      ∃ node ∈ request.named, graph.size ≤ node ∧ error = .nodeOutOfRange node := by
  cases checked : request.named.forM tree.graph.checkNode with
  | error reason =>
      rcases Request.perform_of_error checked with ⟨asked, done⟩
      rw [done] at performed
      cases performed
      rw [used.ready.graph_eq] at checked
      exact ⟨asked, rfl, Graph.exists_of_forM_checkNode_error checked⟩
  | ok _ =>
      rcases Request.perform_of_ok checked with ⟨_, _, -, done⟩ | ⟨_, _, asked, done⟩
      · rw [done] at performed
        cases performed
      · rw [done] at performed
        cases performed
        exact absurd (used.ready.eq_endless priced checked asked) finite

/-- A path tree that has been used is left as one. -/
theorem Used.after? (used : Used graph cost landmarks tree)
    (priced : ∀ link ∈ graph.links, cost.prices link = true) {request : Request α}
    {next : PathTree α} (left : tree.after? request = some next) :
    Used graph cost landmarks next := by
  rw [PathTree.after?] at left
  cases performed : request.perform tree with
  | ok path answered =>
      rw [performed] at left
      cases left
      exact used.ask (Request.perform_eq_ok.mp performed)
  | error error refused =>
      rw [performed] at left
      by_cases finite : error = .config .endless
      · subst finite
        cases left
      · rcases used.perform_refused priced performed finite with ⟨-, rfl, node, -, -, rfl⟩
        cases left
        exact used

theorem Used.history (used : Used graph cost landmarks tree)
    (priced : ∀ link ∈ graph.links, cost.prices link = true) {history : List (Request α)}
    {last : PathTree α} (asked : history.foldlM PathTree.after? tree = some last) :
    Used graph cost landmarks last := by
  induction history generalizing tree with
  | nil =>
      cases asked
      exact used
  | cons request history ih =>
      rw [List.foldlM_cons] at asked
      rcases Option.bind_eq_some_iff.mp asked with ⟨next, left, asked⟩
      exact ih (used.after? priced left) asked

theorem used_fresh (graph : Graph α) (cost : CostModel α) (landmarks : Option (Landmarks α)) :
    Used graph cost landmarks { make graph cost with landmarks } := by
  cases landmarks with
  | none => exact .make
  | some landmarks => exact .withLandmarks landmarks

/-- A request that is tame comes to an end. -/
theorem Used.ask_ok (used : Used graph cost landmarks tree) (wellFormed : graph.WellFormed)
    (priced : ∀ link ∈ graph.links, cost.prices link = true) {request : Request α}
    (inside : ∀ node ∈ request.named, node < graph.size)
    (tame : request.IsTame graph cost landmarks.isSome) :
    ∃ path answered, request.ask tree = .ok (path, answered) := by
  cases request with
  | calculate source start bounds =>
      have sourceInside : source < graph.size :=
        inside source (by cases bounds <;> exact List.mem_cons_self)
      have known : ∀ targets ∈ bounds.awaited, ∀ target ∈ targets, target < graph.size := by
        rintro targets awaited target member
        cases bounds <;> cases awaited
        exact inside target (List.mem_cons_of_mem _ member)
      rcases used.calculate_ok wellFormed priced sourceInside start bounds known with
        ⟨_, _, answered, _, _, done, -⟩
      exact ⟨none, answered, by rw [Request.ask, done]; rfl⟩
  | path origin destination start =>
      have originInside : origin < graph.size := inside origin (by simp [Request.named])
      have destinationInside : destination < graph.size :=
        inside destination (by simp [Request.named])
      cases landmarks with
      | none =>
          rcases used.calculatePath_plain wellFormed priced originInside destinationInside start
            with ⟨_, _, _, _, _, done, -⟩
          exact ⟨_, _, done⟩
      | some landmarks =>
          rcases tame with noGoal | ⟨_, nonneg⟩
          · cases noGoal
          · rcases used.calculatePath_guided wellFormed priced originInside destinationInside
              nonneg with ⟨_, _, _, _, _, done, -⟩
            exact ⟨_, _, done⟩

/-- A path tree can be asked again after a tame request. -/
theorem Used.exists_after? (used : Used graph cost landmarks tree)
    (wellFormed : graph.WellFormed) (priced : ∀ link ∈ graph.links, cost.prices link = true)
    {request : Request α} (tame : request.IsTame graph cost landmarks.isSome) :
    ∃ next, tree.after? request = some next := by
  rw [PathTree.after?]
  cases checked : request.named.forM tree.graph.checkNode with
  | error error =>
      rcases Graph.exists_of_forM_checkNode_error checked with ⟨node, -, -, rfl⟩
      rw [(Request.perform_of_error checked).2]
      exact ⟨tree, rfl⟩
  | ok _ =>
      rw [used.ready.graph_eq] at checked
      have inside := Graph.lt_of_forM_checkNode checked
      rcases used.ask_ok wellFormed priced inside tame with ⟨path, answered, done⟩
      rw [Request.perform_eq_ok.mpr done]
      exact ⟨answered, rfl⟩

/-- A path tree that is only asked tame requests can always be asked again. -/
theorem Used.exists_history (used : Used graph cost landmarks tree)
    (wellFormed : graph.WellFormed) (priced : ∀ link ∈ graph.links, cost.prices link = true)
    {history : List (Request α)}
    (tame : ∀ request ∈ history, request.IsTame graph cost landmarks.isSome) :
    ∃ last, history.foldlM PathTree.after? tree = some last := by
  induction history generalizing tree with
  | nil => exact ⟨tree, rfl⟩
  | cons request history ih =>
      rcases List.forall_mem_cons.mp tame with ⟨first, others⟩
      rcases used.exists_after? wellFormed priced first with ⟨next, left⟩
      rcases ih (used.after? priced left) others with ⟨last, asked⟩
      exact ⟨last, by rw [List.foldlM_cons, left]; exact asked⟩

/-- Whatever a path tree has been asked, a request that is answered has the answer that a
fresh path tree gives which is asked nothing else, and nothing tells apart what is left of
the two.  A request is refused only if it names a node that does not exist, and then it
leaves everything that can be read off the tree as it was.  All other requests are answered,
apart from those that never end, on a fresh tree neither, and tame ones are not among
these. -/
theorem perform_after_history (landmarks : Option (Landmarks α))
    (priced : ∀ link ∈ graph.links, cost.prices link = true) (history : List (Request α))
    {tree : PathTree α}
    (asked : history.foldlM after? { make graph cost with landmarks } = some tree)
    (request : Request α) :
    let fresh : PathTree α := { make graph cost with landmarks }
    (∀ path answered, request.perform tree = .ok path answered →
      request.ask tree = .ok (path, answered) ∧
        ∃ alone, request.perform fresh = .ok path alone ∧
          request.ask fresh = .ok (path, alone) ∧ ShowsSame answered alone) ∧
    (∀ error refused, request.perform tree = .error error refused → error ≠ .config .endless →
      request.ask tree = .error error ∧ ShowsSame refused tree ∧
        ∃ node ∈ request.named, graph.size ≤ node ∧ error = .nodeOutOfRange node) ∧
    ((∀ node ∈ request.named, node < graph.size) →
      (∃ path answered, request.perform tree = .ok path answered) ∨
        request.ask tree = .error (.config .endless) ∧
          request.ask fresh = .error (.config .endless)) ∧
    (graph.WellFormed → (∀ node ∈ request.named, node < graph.size) →
      request.IsTame graph cost landmarks.isSome →
        ∃ path answered, request.perform tree = .ok path answered) := by
  intro fresh
  have freshUsed : Used graph cost landmarks fresh := used_fresh graph cost landmarks
  have used : Used graph cost landmarks tree := freshUsed.history priced asked
  have alike := used.ready.ask_alike freshUsed.ready request
  refine ⟨?_, ?_, ?_, ?_⟩
  · intro path answered performed
    have done := Request.perform_eq_ok.mp performed
    rcases alike with ⟨_, refused, -⟩ | ⟨_, _, alone, same, doneAlone, shown⟩
    · rw [done] at refused
      cases refused
    · rw [done] at same
      cases same
      exact ⟨done, alone, Request.perform_eq_ok.mpr doneAlone, doneAlone, shown⟩
  · intro error refused performed finite
    rcases used.perform_refused priced performed finite with ⟨asked, rfl, outside⟩
    exact ⟨asked, .refl _, outside⟩
  · intro inside
    have checked : request.named.forM tree.graph.checkNode = .ok () := by
      rw [used.ready.graph_eq]
      exact Graph.forM_checkNode inside
    rcases alike with ⟨error, refused, refusedAlone⟩ | ⟨path, answered, _, done, -, -⟩
    · obtain rfl := used.ready.eq_endless priced checked refused
      exact .inr ⟨refused, refusedAlone⟩
    · exact .inl ⟨path, answered, Request.perform_eq_ok.mpr done⟩
  · intro wellFormed inside tame
    rcases used.ask_ok wellFormed priced inside tame with ⟨path, answered, done⟩
    exact ⟨path, answered, Request.perform_eq_ok.mpr done⟩

/-- A search that stops early, one that is refused, one for a goal and a search that prunes, all
before the path that is wanted. -/
def mixedRequests : List (Request (Exact ℚ)) :=
  [.calculate 0 (28800 : ℚ) (.targets [1]), .calculate 7 (0 : ℚ) .unbounded,
    .path 0 2 (28800 : ℚ), .calculate 0 (28800 : ℚ) (.maxDistance (500 : ℚ))]

theorem perform_after_history_triangle :
    let fresh : PathTree (Exact ℚ) :=
      { make Graph.triangle .freeSpeed with landmarks := some ⟨3, []⟩ }
    let request : Request (Exact ℚ) := .path 1 2 (28800 : ℚ)
    ∃ tree, mixedRequests.foldlM after? fresh = some tree ∧
      ∃ path answered alone, request.perform tree = .ok path answered ∧
        request.perform fresh = .ok path alone ∧ ShowsSame answered alone := by
  intro fresh request
  have priced : ∀ link ∈ (Graph.triangle : Graph (Exact ℚ)).links,
      CostModel.freeSpeed.prices link = true := fun _ _ => rfl
  have tame (request : Request (Exact ℚ)) (begins : ∃ seconds : ℚ, request.start = seconds) :
      request.IsTame Graph.triangle .freeSpeed true :=
    .inr ⟨inferInstance, CostModel.freeSpeed_isNonnegative_triangle.isNonnegativeFrom _ begins⟩
  have allTame : ∀ request ∈ mixedRequests, request.IsTame Graph.triangle .freeSpeed true := by
    intro request member
    simp only [mixedRequests, List.mem_cons, List.not_mem_nil, or_false] at member
    rcases member with rfl | rfl | rfl | rfl <;> exact tame _ ⟨_, rfl⟩
  have used : Used Graph.triangle .freeSpeed (some ⟨3, []⟩) fresh := used_fresh _ _ _
  rcases used.exists_history Graph.triangle_wellFormed priced allTame with ⟨tree, asked⟩
  rcases perform_after_history (some ⟨3, []⟩) priced mixedRequests asked request with
    ⟨answers, -, -, succeeds⟩
  rcases succeeds Graph.triangle_wellFormed (by decide) (tame request ⟨_, rfl⟩) with
    ⟨path, answered, performed⟩
  rcases answers path answered performed with ⟨-, alone, performedAlone, -, same⟩
  exact ⟨tree, asked, path, answered, alone, performed, performedAlone, same⟩

end JourneyTimes.PathTree
