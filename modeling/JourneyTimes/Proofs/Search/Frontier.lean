import JourneyTimes.Search.Frontier
import JourneyTimes.Proofs.Scalar.Exact
import Mathlib.Data.Prod.Lex

/-!
# The first node of a frontier

A frontier holds every node at most once.  What comes out of it is one of its
entries, and if all keys can be compared it is one of least key, with the smallest
number among several of that key.
-/

namespace JourneyTimes.Frontier

section Membership

variable {α : Type}

/-- The nodes that wait. -/
def nodes (frontier : Frontier α) : List Nat := frontier.entries.map (·.node)

theorem mem_nodes {frontier : Frontier α} {node : Nat} :
    node ∈ frontier.nodes ↔ ∃ entry ∈ frontier.entries, entry.node = node := by
  simp [nodes]

theorem mem_entries_push {frontier : Frontier α} {node : Nat} {key : α}
    {entry : Entry α} :
    entry ∈ (frontier.push node key).entries ↔
      entry = ⟨key, node⟩ ∨ entry ∈ frontier.entries ∧ entry.node ≠ node := by
  simp [push]

theorem mem_nodes_push {frontier : Frontier α} {node other : Nat} {key : α} :
    other ∈ (frontier.push node key).nodes ↔ other = node ∨ other ∈ frontier.nodes := by
  simp only [mem_nodes, mem_entries_push]
  constructor
  · rintro ⟨entry, rfl | ⟨member, -⟩, rfl⟩
    · exact .inl rfl
    · exact .inr ⟨entry, member, rfl⟩
  · rintro (rfl | ⟨entry, member, rfl⟩)
    · exact ⟨_, .inl rfl, rfl⟩
    · by_cases same : entry.node = node
      · exact ⟨_, .inl rfl, same.symm⟩
      · exact ⟨entry, .inr ⟨member, same⟩, rfl⟩

theorem nodup_push {frontier : Frontier α} (once : frontier.nodes.Nodup) (node : Nat)
    (key : α) : (frontier.push node key).nodes.Nodup := by
  simp only [nodes, push, List.map_cons, List.nodup_cons, List.mem_map, List.mem_filter]
  refine ⟨?_, (List.Sublist.map _ (List.filter_sublist ..)).nodup once⟩
  rintro ⟨entry, ⟨-, other⟩, same⟩
  simp [same] at other

/-! ## Taking the first node out -/

variable [Scalar α]

theorem foldl_earlier_mem (best : Entry α) (rest : List (Entry α)) :
    rest.foldl earlier best ∈ best :: rest := by
  induction rest generalizing best with
  | nil => simp
  | cons entry rest ih =>
      have member := ih (earlier best entry)
      rw [List.foldl_cons]
      rcases List.mem_cons.mp member with same | later
      · rw [same]
        unfold earlier
        split <;> simp
      · simp [later]

theorem pop?_eq_none_iff {frontier : Frontier α} :
    frontier.pop? = none ↔ frontier.nodes = [] := by
  unfold pop? nodes
  cases frontier.entries <;> simp

/-- The node that comes out was waiting, and all others still are. -/
theorem pop?_eq_some {frontier rest : Frontier α} {node : Nat}
    (popped : frontier.pop? = some (node, rest)) :
    node ∈ frontier.nodes ∧
      rest.entries = frontier.entries.filter fun entry => entry.node != node := by
  unfold pop? at popped
  split at popped
  · cases popped
  · rename_i entry others entries
    cases popped
    refine ⟨mem_nodes.mpr ⟨_, ?_, rfl⟩, rfl⟩
    rw [entries]
    exact foldl_earlier_mem entry others

theorem mem_entries_of_pop? {frontier rest : Frontier α} {node : Nat}
    (popped : frontier.pop? = some (node, rest)) {entry : Entry α} :
    entry ∈ rest.entries ↔ entry ∈ frontier.entries ∧ entry.node ≠ node := by
  simp [(pop?_eq_some popped).2]

theorem mem_nodes_of_pop? {frontier rest : Frontier α} {node other : Nat}
    (popped : frontier.pop? = some (node, rest)) :
    other ∈ rest.nodes ↔ other ∈ frontier.nodes ∧ other ≠ node := by
  simp only [mem_nodes, mem_entries_of_pop? popped]
  constructor
  · rintro ⟨entry, ⟨member, apart⟩, rfl⟩
    exact ⟨⟨entry, member, rfl⟩, apart⟩
  · rintro ⟨⟨entry, member, rfl⟩, apart⟩
    exact ⟨entry, ⟨member, apart⟩, rfl⟩

theorem nodup_of_pop? {frontier rest : Frontier α} {node : Nat}
    (popped : frontier.pop? = some (node, rest)) (once : frontier.nodes.Nodup) :
    rest.nodes.Nodup := by
  rw [nodes, (pop?_eq_some popped).2]
  exact (List.Sublist.map _ (List.filter_sublist ..)).nodup once

end Membership

/-! ## Order -/

section Order

variable {α β : Type} [Scalar α] [LinearOrder β]

/-- The first entry comes out no later than the second: its key is smaller, or neither is
and its node is no greater. -/
def Entry.NoLater (first second : Entry α) : Prop :=
  first.key < second.key ∨
    first.key ≤ second.key ∧ second.key ≤ first.key ∧ first.node ≤ second.node

/-- All keys can be compared. -/
def HasDefinedKeys (entries : List (Entry α)) : Prop :=
  ∀ entry ∈ entries, entry.key ≤ entry.key

section Ranking

variable (ranking : Scalar.Ranking α β)

/-- Where an entry stands: at the place of its key, and there by its node. -/
def Entry.place? (entry : Entry α) : Option (β ×ₗ Nat) :=
  (ranking.rank? entry.key).map fun rank => toLex (rank, entry.node)

theorem Entry.noLater_iff {first second : Entry α} :
    first.NoLater second ↔
      ∃ low ∈ first.place? ranking, ∃ high ∈ second.place? ranking, low ≤ high := by
  rw [NoLater, ranking.lt_iff, ranking.le_iff, ranking.le_iff, place?, place?]
  cases ranking.rank? first.key with
  | none => simp
  | some low =>
      cases ranking.rank? second.key with
      | none => simp
      | some high =>
          simp only [Option.mem_def, Option.some.injEq, exists_eq_left', Option.map_some,
            Prod.Lex.toLex_le_toLex]
          constructor
          · rintro (less | ⟨le, ge, nodes⟩)
            · exact .inl less
            · exact .inr ⟨le_antisymm le ge, nodes⟩
          · rintro (less | ⟨rfl, nodes⟩)
            · exact .inl less
            · exact .inr ⟨le_rfl, le_rfl, nodes⟩

theorem Entry.exists_place? {entry : Entry α} (defined : entry.key ≤ entry.key) :
    ∃ place, entry.place? ranking = some place := by
  rcases ranking.le_iff.mp defined with ⟨rank, isRank, -⟩
  exact ⟨toLex (rank, entry.node), by rw [place?, Option.mem_def.mp isRank]; rfl⟩

/-- Of two entries the one that stands first comes out first. -/
theorem Entry.precedes_iff {left right : Entry α} {low high : β ×ₗ Nat}
    (isLow : left.place? ranking = some low) (isHigh : right.place? ranking = some high) :
    left.precedes right = true ↔ low < high := by
  rcases Option.map_eq_some_iff.mp isLow with ⟨first, isFirst, rfl⟩
  rcases Option.map_eq_some_iff.mp isHigh with ⟨second, isSecond, rfl⟩
  simp only [precedes, Bool.or_eq_true, Bool.and_eq_true, Bool.not_eq_true',
    decide_eq_true_eq, decide_eq_false_iff_not, ranking.lt_iff, isFirst, isSecond,
    Option.mem_def, Option.some.injEq, exists_eq_left', Prod.Lex.toLex_lt_toLex, not_lt]
  constructor
  · rintro (less | ⟨le, nodes⟩)
    · exact .inl less
    · rcases le.lt_or_eq with less | same
      · exact .inl less
      · exact .inr ⟨same, nodes⟩
  · rintro (less | ⟨rfl, nodes⟩)
    · exact .inl less
    · exact .inr ⟨le_rfl, nodes⟩

include ranking

theorem Entry.NoLater.trans {first second third : Entry α} (left : first.NoLater second)
    (right : second.NoLater third) : first.NoLater third := by
  rw [noLater_iff ranking] at left right ⊢
  rcases left with ⟨low, isLow, middle, isMiddle, lower⟩
  rcases right with ⟨same, isSame, high, isHigh, upper⟩
  obtain rfl := Option.mem_unique isMiddle isSame
  exact ⟨low, isLow, high, isHigh, lower.trans upper⟩

/-- The earlier of two entries comes out no later than either. -/
theorem earlier_noLater {best entry : Entry α} (defined : HasDefinedKeys [best, entry]) :
    (earlier best entry).NoLater best ∧ (earlier best entry).NoLater entry := by
  rcases Entry.exists_place? ranking (defined best (by simp)) with ⟨old, isOld⟩
  rcases Entry.exists_place? ranking (defined entry (by simp)) with ⟨new, isNew⟩
  have first := Entry.precedes_iff ranking isNew isOld
  unfold earlier
  split_ifs with precedes
  · exact ⟨(Entry.noLater_iff ranking).mpr ⟨new, isNew, old, isOld, (first.mp precedes).le⟩,
      (Entry.noLater_iff ranking).mpr ⟨new, isNew, new, isNew, le_rfl⟩⟩
  · have ordered : old ≤ new := not_lt.mp fun less => precedes (first.mpr less)
    exact ⟨(Entry.noLater_iff ranking).mpr ⟨old, isOld, old, isOld, le_rfl⟩,
      (Entry.noLater_iff ranking).mpr ⟨old, isOld, new, isNew, ordered⟩⟩

theorem foldl_earlier_noLater (best : Entry α) (rest : List (Entry α))
    (defined : HasDefinedKeys (best :: rest)) :
    ∀ entry ∈ best :: rest, (rest.foldl earlier best).NoLater entry := by
  induction rest generalizing best with
  | nil =>
      intro entry member
      rw [List.mem_singleton.mp member]
      have known := defined best (List.mem_cons_self ..)
      exact .inr ⟨known, known, le_rfl⟩
  | cons entry rest ih =>
      have two : HasDefinedKeys [best, entry] := fun other member => defined other (by grind)
      have pair := earlier_noLater ranking two
      have restDefined : HasDefinedKeys (earlier best entry :: rest) := by
        intro other member
        rcases List.mem_cons.mp member with rfl | later
        · unfold earlier
          split
          · exact defined entry (by simp)
          · exact defined best (by simp)
        · exact defined other (by simp [later])
      have least := ih (earlier best entry) restDefined
      have first := least _ (List.mem_cons_self ..)
      intro other member
      rw [List.foldl_cons]
      rcases List.mem_cons.mp member with rfl | member
      · exact first.trans ranking pair.1
      · rcases List.mem_cons.mp member with rfl | member
        · exact first.trans ranking pair.2
        · exact least other (List.mem_cons_of_mem _ member)

/-- The node that comes out has an entry that comes no later than any other. -/
theorem pop?_noLater {frontier rest : Frontier α} {node : Nat}
    (popped : frontier.pop? = some (node, rest)) (defined : HasDefinedKeys frontier.entries) :
    ∃ first ∈ frontier.entries, first.node = node ∧
      ∀ entry ∈ frontier.entries, first.NoLater entry := by
  unfold pop? at popped
  split at popped
  · cases popped
  · rename_i entry others entries
    cases popped
    rw [entries] at defined ⊢
    exact ⟨_, foldl_earlier_mem entry others, rfl,
      foldl_earlier_noLater ranking entry others defined⟩

end Ranking

end Order

/-! ## Keys that are numbers -/

section Exact

variable {K : Type} [Field K] [LinearOrder K] [FloorRing K] [Trigonometry K]

/-- The key of every entry is a number. -/
def HasFiniteKeys (entries : List (Entry (Exact K))) : Prop :=
  ∀ entry ∈ entries, ∃ key : K, entry.key = key

/-- The first entry comes out no later than the second: its key is smaller, or
equal and its node no greater. -/
def Entry.AtMost (first second : Entry (Exact K)) : Prop :=
  first.key < second.key ∨ first.key = second.key ∧ first.node ≤ second.node

/-- The node that comes out has an entry that comes no later than any other. -/
theorem pop?_atMost {frontier rest : Frontier (Exact K)} {node : Nat}
    (popped : frontier.pop? = some (node, rest)) (finite : HasFiniteKeys frontier.entries) :
    ∃ first ∈ frontier.entries, first.node = node ∧
      ∀ entry ∈ frontier.entries, first.AtMost entry := by
  have defined : HasDefinedKeys frontier.entries := by
    intro entry member
    rcases finite entry member with ⟨key, keyEq⟩
    simp [keyEq]
  rcases pop?_noLater Exact.ranking popped defined with ⟨first, member, isNode, least⟩
  refine ⟨first, member, isNode, fun entry entryMember => ?_⟩
  rcases least entry entryMember with less | ⟨le, ge, nodes⟩
  · exact .inl less
  · exact .inr ⟨Exact.le_antisymm le ge, nodes⟩

theorem Entry.AtMost.key_le {first second : Entry (Exact K)} (finite : HasFiniteKeys [first])
    (atMost : first.AtMost second) : first.key ≤ second.key := by
  rcases atMost with less | ⟨same, -⟩
  · exact Exact.le_of_lt less
  · rcases finite first (by simp) with ⟨key, keyEq⟩
    rw [← same, keyEq]
    simp

end Exact

end JourneyTimes.Frontier
