import JourneyTimes.Proofs.Search.Linked

/-!
# Answers that can be computed

A search may go on for ever, and so its definition cannot be evaluated, nor can the one of
a way that may go round in a circle.  Both can be evaluated for a number of rounds and
links.  If this gives an answer, it is the answer.
-/

namespace JourneyTimes.PathTree

variable {α : Type}

/-- The way to a node, if there are no more links on it than a number. -/
def followBackWithin (lastLink? : Nat → Option (Graph.Link α)) :
    Nat → Nat → Option (List Nat × List Nat)
  | 0, _ => none
  | steps + 1, node =>
    match lastLink? node with
    | none => some ([node], [])
    | some link => (followBackWithin lastLink? steps link.origin).map fun way =>
        (way.1 ++ [node], way.2 ++ [link.index])

theorem trace_of_within {tree : PathTree α} {steps node : Nat} {way : List Nat × List Nat}
    (found : followBackWithin tree.lastLink? steps node = some way) :
    tree.trace node = some way := by
  induction steps generalizing node way with
  | zero => cases found
  | succ steps ih =>
      rw [followBackWithin] at found
      cases last : tree.lastLink? node with
      | none =>
          rw [last] at found
          rw [trace_of_none last]
          exact found
      | some link =>
          rw [last] at found
          rcases Option.map_eq_some_iff.mp found with ⟨before, foundBefore, rfl⟩
          rw [trace_of_some last, ih foundBefore]
          rfl

variable [Scalar α]

/-- The path to a node, if the last query reached it and there are no more links on the path
than a number. -/
def pathWithin? (steps : Nat) (tree : PathTree α) (node : Nat) : Option (Path α) := do
  let time ← tree.time? node
  let (nodes, links) ← followBackWithin tree.lastLink? steps node
  pure
    { nodes, links
      travelTime := time - tree.startTime
      cost := (tree.label node).cost
      distance := (tree.label node).distance }

theorem path?_of_within {tree : PathTree α} {steps node : Nat} {path : Path α}
    (found : tree.pathWithin? steps node = some path) : tree.path? node = some path := by
  rw [pathWithin?, Option.bind_eq_bind, Option.bind_eq_some_iff] at found
  rcases found with ⟨time, timeEq, found⟩
  rcases Option.bind_eq_some_iff.mp found with ⟨way, wayEq, found⟩
  rw [path?, timeEq, Option.bind_eq_bind, Option.bind_some, trace_of_within wayEq]
  exact found

/-- The path tree that is left of a search that comes to an end in a number of rounds. -/
def searchWithin (rounds : Nat) (tree : PathTree α) (source : Nat) (start : α)
    (bounds : SearchBounds α) (goal : Option Nat) : Option (PathTree α) :=
  let query := tree.query source start bounds goal
  (Search.loopWithin query rounds (Search.initial query tree.scratch.reset)).bind fun final =>
    if final.stray then none
    else some { tree.reset source start with scratch := final.toScratch }

theorem search_of_within {tree answered : PathTree α} {rounds source : Nat} {start : α}
    {bounds : SearchBounds α} {goal : Option Nat}
    (found : tree.searchWithin rounds source start bounds goal = some answered) :
    tree.search source start bounds goal = .ok answered := by
  rcases Option.bind_eq_some_iff.mp found with ⟨final, within, found⟩
  split_ifs at found with stray
  rw [search_eq, Search.run_eq_ok.mpr
    ⟨Search.loop_eq_some_iff.mpr ⟨rounds, within⟩, Bool.eq_false_iff.mpr stray⟩]
  exact congrArg Except.ok (Option.some.inj found)

/-- The path tree that is left of a calculation whose search comes to an end in a number of
rounds. -/
def calculateWithin (rounds : Nat) (tree : PathTree α) (source : Nat) (start : α)
    (bounds : SearchBounds α) : Option (PathTree α) := do
  (tree.graph.checkNode source).toOption
  (tree.checkTargets bounds).toOption
  tree.searchWithin rounds source start bounds none

/-- Search for a way from one node to another, in a number of rounds. -/
def searchPathWithin (rounds : Nat) (tree : PathTree α) (origin destination : Nat) (start : α) :
    Option (PathTree α) :=
  if tree.landmarks.isSome then
    tree.searchWithin rounds origin start .unbounded (some destination)
  else tree.searchWithin rounds origin start (.targets [destination]) none

/-- The path between two nodes and the tree that is left of the search for it, if this takes
no more than a number of rounds and there are no more links on the path. -/
def calculatePathWithin (rounds : Nat) (tree : PathTree α) (origin destination : Nat)
    (start : α) : Option (Path α × PathTree α) := do
  (tree.graph.checkNode origin).toOption
  (tree.graph.checkNode destination).toOption
  let answered ← tree.searchPathWithin rounds origin destination start
  let path ← answered.pathWithin? rounds destination
  pure (path, answered)

theorem calculate_of_within {tree answered : PathTree α} {rounds source : Nat} {start : α}
    {bounds : SearchBounds α}
    (found : tree.calculateWithin rounds source start bounds = some answered) :
    tree.calculate source start bounds = .ok answered := by
  rcases Option.bind_eq_some_iff.mp found with ⟨_, inside, found⟩
  rcases Option.bind_eq_some_iff.mp found with ⟨_, accepted, found⟩
  rw [calculate, eq_ok_of_toOption inside, ok_bind, eq_ok_of_toOption accepted, ok_bind,
    search_of_within found]

/-- What is read off the path tree that is left is what was computed. -/
theorem eq_of_calculateWithin {β : Type} {tree answered : PathTree α} {rounds source : Nat}
    {start : α} {bounds : SearchBounds α} {read : PathTree α → β} {shown : β}
    (found : (tree.calculateWithin rounds source start bounds).map read = some shown)
    (done : tree.calculate source start bounds = .ok answered) : read answered = shown := by
  rcases Option.map_eq_some_iff.mp found with ⟨same, within, rfl⟩
  rw [Except.ok.inj (done.symm.trans (calculate_of_within within))]

theorem exists_of_calculateWithin {tree : PathTree α} {rounds source : Nat} {start : α}
    {bounds : SearchBounds α} {check : PathTree α → Bool}
    (checked : (tree.calculateWithin rounds source start bounds).any check = true) :
    ∃ answered, tree.calculate source start bounds = .ok answered ∧ check answered = true := by
  rcases (Option.any_eq_true ..).mp checked with ⟨answered, found, passes⟩
  exact ⟨answered, calculate_of_within found, passes⟩

theorem calculatePath_of_within {tree answered : PathTree α} {rounds origin destination : Nat}
    {start : α} {path : Path α}
    (found : tree.calculatePathWithin rounds origin destination start = some (path, answered)) :
    tree.calculatePath origin destination start = .ok (some path, answered) := by
  rcases Option.bind_eq_some_iff.mp found with ⟨_, inside, found⟩
  rcases Option.bind_eq_some_iff.mp found with ⟨_, destinationInside, found⟩
  rcases Option.bind_eq_some_iff.mp found with ⟨left, within, found⟩
  rcases Option.bind_eq_some_iff.mp found with ⟨way, pathEq, found⟩
  cases found
  have searched : tree.searchPath origin destination start = .ok answered := by
    rw [searchPathWithin] at within
    rw [searchPath]
    split_ifs at within ⊢ <;> exact search_of_within within
  rw [calculatePath, eq_ok_of_toOption inside, ok_bind, eq_ok_of_toOption destinationInside,
    ok_bind, searched, ok_bind, findPath, path?_of_within pathEq]
  rfl

end JourneyTimes.PathTree
