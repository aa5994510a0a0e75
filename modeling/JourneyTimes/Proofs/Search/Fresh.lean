import JourneyTimes.Proofs.Search.Answer

/-!
# Path trees forget what they were asked before

Two searches for the same query go through the same states, as far as anything can
be read off them, if their labels hold the same at the start.  Labels that have
been reset hold nothing, whatever they held before.  What a path tree answers
therefore depends on its graph, its cost model and its landmarks, and not on the
queries that it has answered before.
-/

namespace JourneyTimes

variable {α : Type} [Scalar α]

namespace Search

/-- States that nothing but their stamps tells apart. -/
structure Alike (size : Nat) (left right : State α) : Prop where
  labels : left.labels.Alike size right.labels
  frontier_eq : left.frontier = right.frontier
  settled_eq : left.settled = right.settled
  awaited_eq : left.awaited = right.awaited
  stray_eq : left.stray = right.stray

namespace Alike

variable {size : Nat} {query : Query α} {left right : State α}

omit [Scalar α] in
theorem prune (alike : Alike size left right) (node : Nat) (rest : Frontier α) :
    Alike size (Search.prune node rest left) (Search.prune node rest right) :=
  { alike with
    labels := alike.labels.prune node
    frontier_eq := rfl }

omit [Scalar α] in
theorem close (alike : Alike size left right) (node : Nat) (rest : Frontier α) :
    Alike size (Search.close query node rest left) (Search.close query node rest right) where
  labels := alike.labels.settle node
  frontier_eq := rfl
  settled_eq := by
    simp only [Search.close, settle, alike.settled_eq]
  awaited_eq := by
    simp only [Search.close, settle, alike.awaited_eq]
  stray_eq := alike.stray_eq

theorem relax (alike : Alike size left right) (here : Label α) (link : Graph.Link α) :
    Alike size (Search.relax query here left link) (Search.relax query here right link) := by
  unfold Search.relax
  dsimp only
  rw [alike.labels.get_eq]
  split_ifs
  · exact alike
  · exact { alike with stray_eq := rfl }
  · exact alike
  · exact
      { alike with
        labels := alike.labels.improve _ _
        frontier_eq := by rw [alike.frontier_eq] }
  · exact alike

theorem foldl_relax (alike : Alike size left right) (here : Label α)
    (links : List (Graph.Link α)) :
    Alike size (links.foldl (Search.relax query here) left)
      (links.foldl (Search.relax query here) right) := by
  induction links generalizing left right with
  | nil => exact alike
  | cons link links ih => exact ih (alike.relax here link)

theorem expand (alike : Alike size left right) (node : Nat) (rest : Frontier α) :
    Alike size (Search.expand query node rest left) (Search.expand query node rest right) := by
  rw [Search.expand, Search.expand, alike.labels.get_eq]
  exact (alike.close node rest).foldl_relax _ _

theorem loopWithin (alike : Alike size left right) (query : Query α) (rounds : Nat) :
    Option.Rel (Alike size) (Search.loopWithin query rounds left)
      (Search.loopWithin query rounds right) := by
  induction rounds generalizing left right with
  | zero => exact .none
  | succ rounds ih =>
      have sameBeyond (node : Nat) : isBeyond query node left = isBeyond query node right := by
        rw [isBeyond, isBeyond, alike.labels.get_eq]
      have sameOver (node : Nat) (rest : Frontier α) :
          isOver query node (Search.close query node rest left) =
            isOver query node (Search.close query node rest right) := by
        rw [isOver, isOver, (alike.close node rest).awaited_eq]
      rw [Search.loopWithin, Search.loopWithin, round, round, alike.frontier_eq]
      cases right.frontier.pop? with
      | none => exact .some alike
      | some pair =>
          rcases pair with ⟨node, rest⟩
          dsimp only
          rw [sameBeyond, sameOver, (alike.expand node rest).stray_eq]
          split_ifs
          · exact ih (alike.prune node rest)
          · exact .some (alike.close node rest)
          · exact .some (alike.expand node rest)
          · exact ih (alike.expand node rest)

/-- If one of two searches from alike states comes to an end, so does the other one. -/
theorem loop (alike : Alike size left right) (query : Query α) :
    Option.Rel (Alike size) (Search.loop query left) (Search.loop query right) := by
  cases ended : Search.loop query left with
  | some final =>
      rcases loop_eq_some_iff.mp ended with ⟨rounds, within⟩
      have same := alike.loopWithin query rounds
      rw [within] at same
      cases within' : Search.loopWithin query rounds right with
      | none =>
          rw [within'] at same
          cases same
      | some last =>
          rw [within'] at same
          rwa [loop_eq_some_iff.mpr ⟨rounds, within'⟩]
  | none =>
      cases ended' : Search.loop query right with
      | none => exact .none
      | some last =>
          rcases loop_eq_some_iff.mp ended' with ⟨rounds, within'⟩
          have same := alike.loopWithin query rounds
          rw [within'] at same
          cases within : Search.loopWithin query rounds left with
          | none =>
              rw [within] at same
              cases same
          | some final =>
              rw [loop_eq_some_iff.mpr ⟨rounds, within⟩] at ended
              cases ended

end Alike

/-- Searches that begin with nothing known are refused alike or end alike. -/
theorem run_alike {size : Nat} (query : Query α) {left right : Scratch α}
    (leftBlank : Blank size left) (rightBlank : Blank size right) :
    (∃ error, run query left = .error error ∧ run query right = .error error) ∨
      ∃ final last, run query left = .ok final ∧ run query right = .ok last ∧
        Alike size final last := by
  have labels : left.labels.Alike size right.labels :=
    leftBlank.valid.alike rightBlank.valid fun node => by
      rw [leftBlank.get_eq, rightBlank.get_eq]
  have begun : Alike size (initial query left) (initial query right) :=
    { labels := labels.depart _ _
      frontier_eq := by
        rw [initial, initial, leftBlank.frontier_eq, rightBlank.frontier_eq]
      settled_eq := leftBlank.settled_eq.trans rightBlank.settled_eq.symm
      awaited_eq := rfl
      stray_eq := rfl }
  have ended := begun.loop query
  unfold run
  revert ended
  rcases loop query (initial query left) with _ | final <;>
    rcases loop query (initial query right) with _ | last <;> intro ended
  · exact .inl ⟨_, rfl, rfl⟩
  · cases ended
  · cases ended
  · cases ended with
    | some alike =>
        dsimp only
        rw [alike.stray_eq]
        split_ifs
        · exact .inl ⟨_, rfl, rfl⟩
        · exact .inr ⟨final, last, rfl, rfl, alike⟩

/-- A search that begins with nothing known ends, if another one does, and ends alike. -/
theorem exists_alike_of_run {size : Nat} (query : Query α) {left right : Scratch α}
    (leftBlank : Blank size left) (rightBlank : Blank size right) {final : State α}
    (ran : run query left = .ok final) :
    ∃ last, run query right = .ok last ∧ Alike size final last := by
  rcases run_alike query leftBlank rightBlank with
    ⟨_, refused, -⟩ | ⟨same, last, leftRan, rightRan, alike⟩
  · rw [ran] at refused
    cases refused
  · rw [ran] at leftRan
    cases leftRan
    exact ⟨last, rightRan, alike⟩

end Search

namespace PathTree

/-- Path trees that answer the same. -/
structure Alike (left right : PathTree α) : Prop where
  graph_eq : left.graph = right.graph
  label_eq : ∀ node, left.label node = right.label node
  reached_eq : left.reached = right.reached
  start_eq : left.startTime = right.startTime

namespace Alike

variable {left right : PathTree α} (alike : Alike left right) (node : Nat)

include alike
omit [Scalar α]

theorem isReached_eq : left.isReached node = right.isReached node := by
  rw [isReached, isReached, alike.graph_eq, alike.label_eq]

theorem time?_eq : left.time? node = right.time? node := by
  rw [time?, time?, alike.isReached_eq, alike.label_eq]

theorem trace_eq : left.trace node = right.trace node := by
  have links : left.lastLink? = right.lastLink? := by
    funext other
    rw [lastLink?, lastLink?, alike.label_eq, alike.graph_eq]
  rw [trace, trace, links]

theorem path?_eq [Scalar α] : left.path? node = right.path? node := by
  rw [path?, path?, alike.time?_eq, alike.trace_eq, alike.label_eq, alike.start_eq]

theorem findPath_eq [Scalar α] : left.findPath node = right.findPath node := by
  rw [findPath, findPath, alike.path?_eq, alike.isReached_eq]

end Alike

omit [Scalar α] in
/-- Searches that end alike are answers alike. -/
theorem Answers.alike {size : Nat} {query : Search.Query α} {final last : Search.State α}
    {left right : PathTree α} (answers : Answers query final left)
    (others : Answers query last right) (alike : Search.Alike size final last) :
    Alike left right where
  graph_eq := answers.graph_eq.trans others.graph_eq.symm
  label_eq node := by rw [answers.label_eq, others.label_eq, alike.labels.get_eq]
  reached_eq := by rw [answers.reached_eq, others.reached_eq, alike.settled_eq]
  start_eq := answers.start_eq.trans others.start_eq.symm

variable {graph : Graph α} {cost : CostModel α} {landmarks : Option (Landmarks α)}
  {left right : PathTree α}

theorem Ready.query_eq {tree : PathTree α} (ready : Ready graph cost landmarks tree)
    (source : Nat) (start : α) (bounds : SearchBounds α) (goal : Option Nat) :
    tree.query source start bounds goal =
      queryOn graph cost landmarks source start bounds goal := by
  rcases ready with ⟨rfl, rfl, rfl, -⟩
  rfl

/-- Whatever path trees were asked before, a search is refused by both of them or leaves both
alike. -/
theorem Ready.search_alike (leftReady : Ready graph cost landmarks left)
    (rightReady : Ready graph cost landmarks right) (source : Nat) (start : α)
    (bounds : SearchBounds α) (goal : Option Nat) :
    (∃ error, left.search source start bounds goal = .error error ∧
        right.search source start bounds goal = .error error) ∨
      ∃ first second, left.search source start bounds goal = .ok first ∧
        right.search source start bounds goal = .ok second ∧
        Alike first second ∧ first.source = second.source := by
  have runs := Search.run_alike (left.query source start bounds goal)
    (.reset leftReady.resettable) (.reset rightReady.resettable)
  have same : left.query source start bounds goal = right.query source start bounds goal := by
    rw [leftReady.query_eq, rightReady.query_eq]
  rw [search_eq, search_eq, ← same]
  rcases runs with ⟨error, leftRefused, rightRefused⟩ | ⟨final, last, leftRan, rightRan, alike⟩
  · rw [leftRefused, rightRefused]
    exact .inl ⟨error, rfl, rfl⟩
  · rw [leftRan, rightRan]
    refine .inr ⟨_, _, rfl, rfl, ?_, rfl⟩
    exact ⟨leftReady.graph_eq.trans rightReady.graph_eq.symm, alike.labels.get_eq,
      alike.settled_eq, rfl⟩

/-- Whatever is read off trees that answer the same, is the same after a search. -/
theorem Ready.search_bind {β : Type} (leftReady : Ready graph cost landmarks left)
    (rightReady : Ready graph cost landmarks right) {answer : PathTree α → Except Error β}
    (agrees : ∀ {left right}, Alike left right → answer left = answer right)
    (source : Nat) (start : α) (bounds : SearchBounds α) (goal : Option Nat) :
    left.search source start bounds goal >>= answer =
      right.search source start bounds goal >>= answer := by
  rcases leftReady.search_alike rightReady source start bounds goal with
    ⟨error, leftRefused, rightRefused⟩ | ⟨first, second, leftDone, rightDone, alike, -⟩
  · rw [leftRefused, rightRefused]
  · rw [leftDone, rightDone, ok_bind, ok_bind, agrees alike]

/-- Whatever path trees were asked before, they find the same ways. -/
theorem Used.calculate_bind {β : Type} (leftUsed : Used graph cost landmarks left)
    (rightUsed : Used graph cost landmarks right) {answer : PathTree α → Except Error β}
    (agrees : ∀ {left right}, Alike left right → answer left = answer right)
    (source : Nat) (start : α) (bounds : SearchBounds α) :
    left.calculate source start bounds >>= answer =
      right.calculate source start bounds >>= answer := by
  have leftReady := leftUsed.ready
  have rightReady := rightUsed.ready
  have searched := leftReady.search_bind rightReady agrees source start bounds none
  unfold PathTree.calculate checkTargets
  simp only [leftReady.graph_eq, rightReady.graph_eq, bind_assoc, searched]

/-- Whatever path trees were asked before, they find the same path. -/
theorem Used.calculatePath_bind {β : Type} (leftUsed : Used graph cost landmarks left)
    (rightUsed : Used graph cost landmarks right) (answer : Option (Path α) → Except Error β)
    (origin destination : Nat) (start : α) :
    (left.calculatePath origin destination start >>= fun found => answer found.1) =
      right.calculatePath origin destination start >>= fun found => answer found.1 := by
  have leftReady := leftUsed.ready
  have rightReady := rightUsed.ready
  have searched (bounds : SearchBounds α) (goal : Option Nat) :=
    leftReady.search_bind rightReady
      (fun alike => congrArg (· >>= answer) (Alike.findPath_eq alike destination))
      origin start bounds goal
  unfold PathTree.calculatePath searchPath
  simp only [leftReady.graph_eq, rightReady.graph_eq, leftReady.landmarks_eq,
    rightReady.landmarks_eq, bind_assoc, pure_bind]
  split_ifs
  · rw [searched]
  · rw [searched]

end PathTree

end JourneyTimes
