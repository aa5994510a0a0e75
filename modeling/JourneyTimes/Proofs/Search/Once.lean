import JourneyTimes.Proofs.Search.Sound
import Mathlib.Data.Finset.Card
import Mathlib.Data.Finset.Range

/-!
# Searches without a goal deal with every node once

Without a goal a node that has been settled or pruned is final: its label never
changes again and it does not return to the frontier.  Every step deals with
one more node, so there are no more steps than nodes, and the search reaches
its end.
-/

namespace JourneyTimes.Search

variable {α : Type} [Scalar α] {query : Query α}

/-- Without targets a search waits for none. -/
theorem awaited_of_reaches (noTargets : query.bounds.awaited = none)
    {scratch : Scratch α} {state : State α}
    (reaches : Reaches query (initial query scratch) state) : state.awaited = none := by
  refine reaches.keeps (fun state => state.awaited = none) ?_ noTargets
  intro state next holds step
  cases step with
  | prune _ _ => exact holds
  | expand _ _ _ =>
      rw [expand, (foldl_relax_settled query _ _ _).2, close, settle]
      simp [holds]

/-- The nodes that have not been dealt with. -/
def openNodes (query : Query α) (state : State α) : Finset Nat :=
  (Finset.range query.graph.size).filter fun node =>
    query.isFinal (state.labels.get node) = false

omit [Scalar α] in
theorem isFinal_eq (noGoal : query.goal = none) (label : Label α) :
    query.isFinal label = (label.pruned || label.settled) := by
  simp [Query.isFinal, noGoal]

omit [Scalar α] in
theorem isFinal_of_settled (noGoal : query.goal = none) {label : Label α}
    (settled : label.settled = true) : query.isFinal label = true := by
  rw [isFinal_eq noGoal, settled, Bool.or_true]

theorem isFinal_get_close (noGoal : query.goal = none) {state : State α}
    (valid : state.labels.Valid query.graph.size) {node : Nat}
    (inside : node < query.graph.size) (rest : Frontier α) (other : Nat) :
    query.isFinal ((close query node rest state).labels.get other) = true ↔
      other = node ∨ query.isFinal (state.labels.get other) = true := by
  rw [get_close query valid inside]
  split_ifs with equal
  · simp [isFinal_eq noGoal, equal]
  · simp [equal]

omit [Scalar α] in
theorem IsWaiting.not_final {state : State α} {node : Nat}
    (waits : IsWaiting query state node) : query.isFinal (state.labels.get node) = false := by
  simp [Query.isFinal, waits.2.1, waits.2.2]

omit [Scalar α] in
/-- A node that waits is not on the record of settled nodes. -/
theorem IsWaiting.nodup_append {state : State α} {node : Nat} (waits : IsWaiting query state node)
    {record : List Nat} (distinct : record.Nodup)
    (settled : ∀ other ∈ record, (state.labels.get other).settled = true) :
    (record ++ [node]).Nodup := by
  refine List.nodup_append.mpr ⟨distinct, List.nodup_singleton _, ?_⟩
  rintro first old second new rfl
  rw [List.mem_singleton.mp new] at old
  exact waits.not_settled (settled node old)

theorem settled_expand (noGoal : query.goal = none) (node : Nat) (rest : Frontier α)
    (state : State α) :
    (expand query node rest state).settled.toList = state.settled.toList ++ [node] := by
  rw [expand, (foldl_relax_settled query _ _ _).1, close, settle]
  simp [noGoal]

/-- A node on a record that has become longer is the last one, or was on it before. -/
theorem last_or_earlier {record before after : List Nat} {node other : Nat}
    (split : record ++ [node] = before ++ other :: after) :
    (other = node ∧ before = record) ∨ ∃ init, record = before ++ other :: init := by
  rcases List.eq_nil_or_concat after with rfl | ⟨init, last, rfl⟩
  · rcases List.append_inj' split rfl with ⟨rfl, same⟩
    cases same
    exact .inl ⟨rfl, rfl⟩
  · rw [List.concat_eq_append, ← List.cons_append, ← List.append_assoc] at split
    exact .inr ⟨init, (List.append_inj' split rfl).1⟩

section

variable (wellFormed : query.graph.WellFormed) (inside : query.source < query.graph.size)
  (noGoal : query.goal = none)

include wellFormed inside noGoal

/-- Settling a node leaves the marks of all others. -/
theorem Sound.expand_marks {state : State α} (sound : Sound query state) {node : Nat}
    {rest : Frontier α} (popped : state.frontier.pop? = some (node, rest)) (other : Nat) :
    ((Search.expand query node rest state).labels.get other).settled =
        (other == node || (state.labels.get other).settled) ∧
      ((Search.expand query node rest state).labels.get other).pruned =
        (state.labels.get other).pruned := by
  have nodeInside := (sound.popped_found wellFormed inside popped).2
  have dealt := isFinal_get_close noGoal sound.valid nodeInside rest other
  rw [get_expand wellFormed sound.valid nodeInside]
  split_ifs with final
  · rw [get_close query sound.valid nodeInside]
    split_ifs with equal <;> simp [equal]
  · have isOpen := isFinal_foldl_better (state.labels.get node)
      (query.graph.linksAt .outgoing node) other (Bool.eq_false_iff.mpr final)
    rw [dealt, not_or] at final
    have wasOpen := Bool.eq_false_iff.mpr final.2
    rw [isFinal_eq noGoal, Bool.or_eq_false_iff] at isOpen wasOpen
    rw [Query.offersFrom, isOpen.1, isOpen.2, wasOpen.1, wasOpen.2]
    simp [final.1]

/-- A step deals with the node that came out and keeps every final label. -/
theorem Sound.step_final {state next : State α} (sound : Sound query state)
    (step : Step query state next) :
    ∃ node rest, state.frontier.pop? = some (node, rest) ∧
      query.isFinal (next.labels.get node) = true ∧
      ∀ other, query.isFinal (state.labels.get other) = true →
        next.labels.get other = state.labels.get other := by
  cases step with
  | @prune node rest popped _ =>
      rcases sound.popped_found wellFormed inside popped with ⟨waits, nodeInside⟩
      refine ⟨node, rest, popped, ?_, ?_⟩
      · rw [get_prune sound.valid nodeInside, if_pos rfl, isFinal_eq noGoal]
        rfl
      · intro other final
        rw [get_prune sound.valid nodeInside, if_neg]
        rintro rfl
        simp [waits.not_final] at final
  | @expand node rest popped _ _ =>
      rcases sound.popped_found wellFormed inside popped with ⟨waits, nodeInside⟩
      have closed := get_close query sound.valid nodeInside rest
      have keep (other : Nat) (final : query.isFinal
          ((close query node rest state).labels.get other) = true) :
          (expand query node rest state).labels.get other =
            (close query node rest state).labels.get other := by
        rw [get_expand wellFormed sound.valid nodeInside, if_pos final]
      have nodeFinal : query.isFinal ((close query node rest state).labels.get node) = true := by
        rw [closed, if_pos rfl, isFinal_eq noGoal]
        simp
      refine ⟨node, rest, popped, by rw [keep node nodeFinal]; exact nodeFinal, ?_⟩
      intro other final
      have apart : other ≠ node := by
        rintro rfl
        simp [waits.not_final] at final
      have same := closed other
      rw [if_neg apart] at same
      rw [keep other (same ▸ final), same]

theorem Sound.card_openNodes_lt {state next : State α} (sound : Sound query state)
    (step : Step query state next) :
    (openNodes query next).card < (openNodes query state).card := by
  rcases sound.step_final wellFormed inside noGoal step with ⟨node, rest, popped, final, keeps⟩
  rcases sound.popped_found wellFormed inside popped with ⟨waits, nodeInside⟩
  refine Finset.card_lt_card (Finset.ssubset_iff_of_subset ?_ |>.mpr ⟨node, ?_, ?_⟩)
  · intro other member
    simp only [openNodes, Finset.mem_filter, Finset.mem_range] at member ⊢
    refine ⟨member.1, Bool.eq_false_iff.mpr ?_⟩
    intro wasFinal
    rw [keeps other wasFinal, wasFinal] at member
    simp at member
  · simp [openNodes, waits.not_final, nodeInside]
  · simp [openNodes, final]

/-- A search without a goal comes to an end. -/
theorem loop_ends_of_noGoal {scratch : Scratch α} (blank : Blank query.graph.size scratch) :
    ∃ final, loop query (initial query scratch) = some final := by
  refine loop_ends (fun budget state =>
    Sound query state ∧ (openNodes query state).card = budget) ?_
    ⟨sound_initial blank inside, rfl⟩
  rintro budget state next ⟨sound, rfl⟩ step
  exact ⟨_, sound.card_openNodes_lt wellFormed inside noGoal step,
    sound.step wellFormed inside step, rfl⟩

end

/-- Without targets a search goes on until nothing waits. -/
theorem run_reaches (noGoal : query.goal = none) (noTargets : query.bounds.awaited = none)
    {scratch : Scratch α} {final : State α} (ran : run query scratch = .ok final) :
    Reaches query (initial query scratch) final ∧ final.frontier.pop? = none := by
  rcases ends_of_run ran with ⟨last, reaches, ends⟩
  have awaitsNothing := awaited_of_reaches noTargets reaches
  cases ends with
  | exhausted exhausted => exact ⟨reaches, exhausted⟩
  | arrived _ _ ended => simp [isOver, close, settle, awaitsNothing, noGoal] at ended

end JourneyTimes.Search
