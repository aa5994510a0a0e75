import JourneyTimes.Search.Tree
import Mathlib.Logic.Relation
import Mathlib.Tactic.SplitIfs

/-!
# The steps of a search

A search takes the first node out of its frontier and either prunes it, or
settles it and relaxes the links that leave it.  It ends when the frontier is
empty or when it has settled the node it was waiting for.  This module states
that once, as a relation between states.

A search that comes to an end does so after some number of steps, and its last
state can be computed when that number is known.  What holds of the first state
and is kept by every step holds of the last state.  A search whose steps use up
a budget comes to an end.
-/

namespace JourneyTimes.Search

variable {α : Type} [Scalar α]

/-! ## What is done with a node -/

/-- Whether the bounds of a query exclude a node with its current label. -/
def isBeyond (query : Query α) (node : Nat) (state : State α) : Bool :=
  query.bounds.prunes ((state.labels.get node).time - query.start)
    (state.labels.get node).distance

/-- A node that came out of the frontier is pruned. -/
def prune (node : Nat) (rest : Frontier α) (state : State α) : State α :=
  { state with
    frontier := rest
    labels := state.labels.prune node }

/-- A node that came out of the frontier is settled. -/
def close (query : Query α) (node : Nat) (rest : Frontier α) (state : State α) :
    State α :=
  settle query node { state with frontier := rest }

/-- A node that came out of the frontier is settled, and its links are
relaxed. -/
def expand (query : Query α) (node : Nat) (rest : Frontier α) (state : State α) :
    State α :=
  (query.graph.linksAt .outgoing node).foldl
    (relax query (state.labels.get node)) (close query node rest state)

/-- One step of a search that goes on. -/
inductive Step (query : Query α) (state : State α) : State α → Prop where
  | prune {node : Nat} {rest : Frontier α}
      (popped : state.frontier.pop? = some (node, rest))
      (beyond : isBeyond query node state = true) :
      Step query state (prune node rest state)
  | expand {node : Nat} {rest : Frontier α}
      (popped : state.frontier.pop? = some (node, rest))
      (within : isBeyond query node state = false)
      (goesOn : isOver query node (close query node rest state) = false) :
      Step query state (expand query node rest state)

/-- How a search ends: with nothing left in the frontier, or with the node that
it was waiting for. -/
inductive Ends (query : Query α) (state : State α) : State α → Prop where
  | exhausted (popped : state.frontier.pop? = none) : Ends query state state
  | arrived {node : Nat} {rest : Frontier α}
      (popped : state.frontier.pop? = some (node, rest))
      (within : isBeyond query node state = false)
      (ended : isOver query node (close query node rest state) = true) :
      Ends query state (close query node rest state)

/-- States that a search comes to from another one. -/
abbrev Reaches (query : Query α) : State α → State α → Prop :=
  Relation.ReflTransGen (Step query)

/-! ## Searches that come to an end -/

/-- One round of a search that goes on with `next`. -/
def round (query : Query α) (next : State α → Option (State α)) (state : State α) :
    Option (State α) :=
  match state.frontier.pop? with
  | none => some state
  | some (node, rest) =>
    if isBeyond query node state then next (prune node rest state)
    else if isOver query node (close query node rest state) then
      some (close query node rest state)
    else if (expand query node rest state).stray then some (expand query node rest state)
    else next (expand query node rest state)

/-- A round is the last one, which ends the search or gives it up after a step, or it is a step
and leaves the rest to the rounds that follow. -/
theorem round_cases (query : Query α) (state : State α) :
    (∃ final, (Ends query state final ∨ Step query state final ∧ final.stray = true) ∧
        ∀ next, round query next state = some final) ∨
      ∃ mid, Step query state mid ∧ ∀ next, round query next state = next mid := by
  unfold round
  cases popped : state.frontier.pop? with
  | none => exact .inl ⟨state, .inl (.exhausted popped), fun _ => rfl⟩
  | some pair =>
      rcases pair with ⟨node, rest⟩
      dsimp only
      split_ifs with beyond atGoal strayed
      · exact .inr ⟨_, .prune popped beyond, fun _ => rfl⟩
      · exact .inl ⟨_, .inl (.arrived popped (Bool.eq_false_iff.mpr beyond) atGoal), fun _ => rfl⟩
      · exact .inl ⟨_, .inr ⟨.expand popped (Bool.eq_false_iff.mpr beyond)
          (Bool.eq_false_iff.mpr atGoal), strayed⟩, fun _ => rfl⟩
      · exact .inr ⟨_, .expand popped (Bool.eq_false_iff.mpr beyond)
          (Bool.eq_false_iff.mpr atGoal), fun _ => rfl⟩

theorem loop_eq (query : Query α) (state : State α) :
    loop query state = round query (loop query) state := by
  rw [loop]
  rfl

/-- The last state of a search that comes to an end in some number of rounds. -/
def loopWithin (query : Query α) : Nat → State α → Option (State α)
  | 0, _ => none
  | rounds + 1, state => round query (loopWithin query rounds) state

/-- A search that comes to an end does so in some number of rounds. -/
theorem loop_eq_some_iff {query : Query α} {state final : State α} :
    loop query state = some final ↔ ∃ rounds, loopWithin query rounds state = some final := by
  constructor
  · refine loop.partial_correctness query
      (fun state final => ∃ rounds, loopWithin query rounds state = some final)
      (fun next ih state final ended => ?_) state final
    change round query next state = some final at ended
    rcases round_cases query state with ⟨last, -, isLast⟩ | ⟨mid, -, goesOn⟩
    · exact ⟨1, by rw [loopWithin, isLast, ← isLast next, ended]⟩
    · rw [goesOn] at ended
      rcases ih mid final ended with ⟨rounds, later⟩
      exact ⟨rounds + 1, by rw [loopWithin, goesOn, later]⟩
  · rintro ⟨rounds, within⟩
    induction rounds generalizing state with
    | zero => cases within
    | succ rounds ih =>
        rw [loopWithin] at within
        rw [loop_eq]
        rcases round_cases query state with ⟨last, -, isLast⟩ | ⟨mid, -, goesOn⟩
        · rw [isLast] at within ⊢
          exact within
        · rw [goesOn] at within ⊢
          exact ih within

/-- A search that is not given up takes steps to its end. -/
theorem ends_of_loop {query : Query α} {state final : State α}
    (ran : loop query state = some final) (onPath : final.stray = false) :
    ∃ last, Reaches query state last ∧ Ends query last final := by
  rcases loop_eq_some_iff.mp ran with ⟨rounds, within⟩
  clear ran
  induction rounds generalizing state with
  | zero => cases within
  | succ rounds ih =>
      rw [loopWithin] at within
      rcases round_cases query state with ⟨last, ended, isLast⟩ | ⟨mid, step, goesOn⟩
      · rw [isLast] at within
        cases within
        exact ⟨state, .refl, ended.resolve_right (by simp [onPath])⟩
      · rw [goesOn] at within
        rcases ih within with ⟨last, reaches, ends⟩
        exact ⟨last, .head step reaches, ends⟩

/-- A search is not given up if no step leads off the path. -/
theorem onPath_of_loop {query : Query α}
    (keeps : ∀ {state next}, state.stray = false → Step query state next → next.stray = false)
    {state final : State α} (ran : loop query state = some final)
    (onPath : state.stray = false) : final.stray = false := by
  rcases loop_eq_some_iff.mp ran with ⟨rounds, within⟩
  clear ran
  induction rounds generalizing state with
  | zero => cases within
  | succ rounds ih =>
      rw [loopWithin] at within
      rcases round_cases query state with ⟨last, ended, isLast⟩ | ⟨mid, step, goesOn⟩
      · rw [isLast] at within
        cases within
        rcases ended with ends | ⟨step, -⟩
        · cases ends <;> exact onPath
        · exact keeps onPath step
      · rw [goesOn] at within
        exact ih (keeps onPath step) within

/-- A search with a budget that every step uses up comes to an end. -/
theorem loop_ends {query : Query α} (Affords : Nat → State α → Prop)
    (keeps : ∀ {budget state next}, Affords budget state → Step query state next →
      ∃ left < budget, Affords left next)
    {budget : Nat} {state : State α} (affords : Affords budget state) :
    ∃ final, loop query state = some final := by
  induction budget using Nat.strongRecOn generalizing state with
  | ind budget ih =>
      rw [loop_eq]
      rcases round_cases query state with ⟨last, -, isLast⟩ | ⟨mid, step, goesOn⟩
      · exact ⟨last, isLast _⟩
      · rcases keeps affords step with ⟨left, less, stillAffords⟩
        rw [goesOn]
        exact ih left less stillAffords

theorem Reaches.keeps {query : Query α} (Holds : State α → Prop)
    (step : ∀ {state next}, Holds state → Step query state next → Holds next)
    {state last : State α} (reaches : Reaches query state last) (holds : Holds state) :
    Holds last := by
  induction reaches with
  | refl => exact holds
  | tail _ last ih => exact step ih last

/-! ## Runs -/

theorem run_eq_ok {query : Query α} {scratch : Scratch α} {final : State α} :
    run query scratch = .ok final ↔
      loop query (initial query scratch) = some final ∧ final.stray = false := by
  unfold run
  split
  case h_1 endless => simp [endless]
  case h_2 last ended =>
    rw [ended]
    cases strayed : last.stray with
    | true =>
        simp only [if_true, reduceCtorEq, Option.some.injEq, false_iff, not_and]
        rintro rfl
        simp [strayed]
    | false =>
        simp only [Bool.false_eq_true, if_false, Except.ok.injEq, Option.some.injEq]
        refine ⟨fun same => ⟨same, same ▸ strayed⟩, And.left⟩

/-- A run takes steps to its end. -/
theorem ends_of_run {query : Query α} {scratch : Scratch α} {final : State α}
    (ran : run query scratch = .ok final) :
    ∃ last, Reaches query (initial query scratch) last ∧ Ends query last final :=
  ends_of_loop (run_eq_ok.mp ran).1 (run_eq_ok.mp ran).2

/-- What steps and ends keep, a run keeps. -/
theorem run_keeps {query : Query α} (Holds : State α → Prop)
    (step : ∀ {state next}, Holds state → Step query state next → Holds next)
    (ends : ∀ {state last}, Holds state → Ends query state last → Holds last)
    {scratch : Scratch α} {final : State α} (ran : run query scratch = .ok final)
    (holds : Holds (initial query scratch)) : Holds final := by
  rcases ends_of_run ran with ⟨last, reaches, ended⟩
  exact ends (reaches.keeps Holds step holds) ended

end JourneyTimes.Search
