import JourneyTimes.Proofs.Scalar.Exact
import JourneyTimes.Search.Heap

/-!
# A heap gives back its least entry

While an entry rises or sinks the heap has a hole: the pairs of an entry and the
one above it are in order, except those that the hole belongs to.  A rising
entry is already in order with the entries below it, and one that has sunk to
the bottom has none, so it may rise from there.
-/

namespace JourneyTimes.Heap

open Array (Perm)

/-! ## Entries are moved, not changed -/

section Contents

variable {α : Type} [Scalar α]

omit [Scalar α] in
theorem swapIfInBounds_perm (entries : Array (Entry α)) (left right : Nat) :
    Perm (entries.swapIfInBounds left right) entries := by
  rw [Array.swapIfInBounds_def]
  split_ifs with leftInside rightInside
  · exact Array.swap_perm leftInside rightInside
  · exact .rfl
  · exact .rfl

theorem rise_perm (entries : Array (Entry α)) (position : Nat) :
    Perm (rise entries position) entries := by
  fun_induction rise entries position with
  | case1 => exact .rfl
  | case2 entries position _ parent _ ih => exact ih.trans (swapIfInBounds_perm ..)
  | case3 => exact .rfl

theorem sink_perm (entries : Array (Entry α)) (position : Nat) :
    Perm (sink entries position).1 entries := by
  fun_induction sink entries position with
  | case1 entries position left _ child ih => exact ih.trans (swapIfInBounds_perm ..)
  | case2 => exact swapIfInBounds_perm ..
  | case3 => exact .rfl

theorem push_perm (heap : Heap α) (node : Nat) (score : α) :
    Perm (heap.push node score).entries (heap.entries.push ⟨score, node⟩) :=
  rise_perm ..

omit [Scalar α] in
/-- When the last entry takes the place of the first one, only the first one goes. -/
theorem replace_first_perm (entries : Array (Entry α)) (first last : Entry α)
    (front : entries[0]? = some first) (back : entries.back? = some last)
    (more : entries.pop.isEmpty = false) :
    Perm ((entries.pop.setIfInBounds 0 last).push first) entries := by
  rcases entries with ⟨_ | ⟨head, rest⟩⟩
  · simp at front
  · obtain rfl : head = first := by simpa using front
    rcases List.eq_nil_or_concat rest with rfl | ⟨middle, final, rfl⟩
    · simp at more
    · obtain rfl : final = last := by simpa [Array.back?] using back
      rw [Array.perm_iff_toList_perm]
      simp only [List.pop_toArray, List.setIfInBounds_toArray, List.push_toArray]
      have swapped : List.Perm (final :: (middle ++ [head])) (head :: (middle ++ [final])) := by
        calc (final :: (middle ++ [head])).Perm (final :: head :: middle) :=
              (List.perm_append_singleton head middle).cons final
          _ = [final, head] ++ middle := rfl
          _ |>.Perm (head :: final :: middle) := .swap ..
          _ |>.Perm (head :: (middle ++ [final])) :=
              ((List.perm_append_singleton final middle).symm).cons head
      have shorter : (head :: (middle ++ [final])).dropLast = head :: middle := by
        rw [← List.cons_append, List.dropLast_concat]
      simpa [shorter] using swapped

/-- What comes out of a heap was in it, and everything else stays. -/
theorem pop?_perm {heap rest : Heap α} {first : Entry α}
    (popped : heap.pop? = some (first, rest)) :
    Perm (rest.entries.push first) heap.entries := by
  unfold pop? at popped
  split at popped
  · rename_i top last front back
    dsimp only at popped
    split_ifs at popped with isEmpty
    · cases popped
      rcases entriesEq : heap.entries with ⟨_ | ⟨head, tail⟩⟩
      · simp [entriesEq] at front
      · rw [entriesEq] at front isEmpty
        obtain rfl : head = first := by simpa using front
        obtain rfl : tail = [] := by
          cases tail <;> simp_all
        exact .rfl
    · cases popped
      have sunk := sink_perm (heap.entries.pop.setIfInBounds 0 last) 0
      exact (((rise_perm _ _).trans sunk).push first).trans
        (replace_first_perm heap.entries first last front back (by simpa using isEmpty))
  · cases popped

/-- Nothing comes out of an empty heap only. -/
theorem eq_empty_of_pop? {heap : Heap α} (popped : heap.pop? = none) : heap.entries = #[] := by
  unfold pop? at popped
  split at popped
  · dsimp only at popped
    split_ifs at popped
  · rename_i noEnds
    by_contra nonempty
    have positive : 0 < heap.entries.size := Array.size_pos_iff.mpr nonempty
    refine noEnds heap.entries[0] heap.entries[heap.entries.size - 1] ?_ ?_
    · simp [positive]
    · simp [Array.back?, positive]

end Contents

/-! ## The order of the entries -/

section Order

variable {K : Type} [Field K] [LinearOrder K] [FloorRing K] [Trigonometry K]

/-- The scores of all entries are numbers. -/
def HasFiniteScores (entries : Array (Entry (Exact K))) : Prop :=
  ∀ entry ∈ entries, ∃ score : K, entry.score = score

/-- The number that is the score at a position. -/
def scoreAt (entries : Array (Entry (Exact K))) (position : Nat) : K :=
  match entries[position]? with
  | some ⟨.finite score, _⟩ => score
  | _ => 0

/-- No score is less than the one above it. -/
def Ordered (entries : Array (Entry (Exact K))) : Prop :=
  ∀ child < entries.size, 0 < child → scoreAt entries ((child - 1) / 2) ≤ scoreAt entries child

/-- All pairs are in order that have nothing to do with one position, and those
next to it would be if it were left out. -/
structure OrderedAround (entries : Array (Entry (Exact K))) (hole : Nat) : Prop where
  apart : ∀ child < entries.size, 0 < child → child ≠ hole → (child - 1) / 2 ≠ hole →
    scoreAt entries ((child - 1) / 2) ≤ scoreAt entries child
  across : 0 < hole → ∀ child < entries.size, 0 < child → (child - 1) / 2 = hole →
    scoreAt entries ((hole - 1) / 2) ≤ scoreAt entries child

/-- All pairs are in order but for an entry and the one above it. -/
structure OrderedBelow (entries : Array (Entry (Exact K))) (hole : Nat) : Prop
    extends OrderedAround entries hole where
  below : ∀ child < entries.size, 0 < child → (child - 1) / 2 = hole →
    scoreAt entries hole ≤ scoreAt entries child

omit [Field K] [LinearOrder K] [FloorRing K] [Trigonometry K] in
theorem HasFiniteScores.perm {entries others : Array (Entry (Exact K))}
    (finite : HasFiniteScores entries) (perm : Perm others entries) : HasFiniteScores others :=
  fun entry member => finite entry (perm.mem_iff.mp member)

omit [LinearOrder K] [FloorRing K] [Trigonometry K] in
theorem HasFiniteScores.score_eq {entries : Array (Entry (Exact K))}
    (finite : HasFiniteScores entries) {position : Nat} {entry : Entry (Exact K)}
    (found : entries[position]? = some entry) : entry.score = scoreAt entries position := by
  rcases finite entry (Array.mem_of_getElem? found) with ⟨score, scoreEq⟩
  rcases entry with ⟨_, node⟩
  cases scoreEq
  rw [scoreAt, found]

theorem isLess_iff {entries : Array (Entry (Exact K))} (finite : HasFiniteScores entries)
    {left right : Nat} (leftInside : left < entries.size) (rightInside : right < entries.size) :
    isLess entries left right = true ↔ scoreAt entries left < scoreAt entries right := by
  have first := Array.getElem?_eq_getElem leftInside
  have second := Array.getElem?_eq_getElem rightInside
  rw [isLess, first, second]
  dsimp only
  rw [finite.score_eq first, finite.score_eq second]
  simp

omit [LinearOrder K] [FloorRing K] [Trigonometry K] in
theorem scoreAt_swapIfInBounds {entries : Array (Entry (Exact K))} {left right : Nat}
    (leftInside : left < entries.size) (rightInside : right < entries.size) (position : Nat) :
    scoreAt (entries.swapIfInBounds left right) position =
      if position = left then scoreAt entries right
      else if position = right then scoreAt entries left
      else scoreAt entries position := by
  have look : (entries.swapIfInBounds left right)[position]? =
      if position = left then entries[right]?
      else if position = right then entries[left]? else entries[position]? := by
    rw [Array.swapIfInBounds_def, dif_pos leftInside, dif_pos rightInside, Array.getElem?_swap,
      ← Array.getElem?_eq_getElem leftInside, ← Array.getElem?_eq_getElem rightInside]
    by_cases isLeft : position = left
    · subst isLeft
      by_cases same : right = position
      · rw [if_pos same, if_pos rfl, same]
      · rw [if_neg same, if_pos rfl, if_pos rfl]
    · rw [if_neg isLeft, if_neg (Ne.symm isLeft)]
      by_cases isRight : position = right
      · rw [if_pos isRight, if_pos isRight.symm]
      · rw [if_neg isRight, if_neg (Ne.symm isRight)]
  rw [scoreAt, look]
  split_ifs <;> rfl

omit [FloorRing K] [Trigonometry K] in
/-- An entry rises one level, past the greater entry above it. -/
theorem OrderedBelow.swap_parent {entries : Array (Entry (Exact K))} {hole : Nat}
    (ordered : OrderedBelow entries hole) (inside : hole < entries.size) (positive : 0 < hole)
    (less : scoreAt entries hole < scoreAt entries ((hole - 1) / 2)) :
    OrderedBelow (entries.swapIfInBounds hole ((hole - 1) / 2)) ((hole - 1) / 2) := by
  have parentInside : (hole - 1) / 2 < entries.size := by omega
  have scores := scoreAt_swapIfInBounds inside parentInside
  -- The entries beside the hole have a greater one above them too.
  have beside (child : Nat) (childInside : child < entries.size) (childPositive : 0 < child)
      (notHole : child ≠ hole) (isBelow : (child - 1) / 2 = (hole - 1) / 2) :
      scoreAt entries ((hole - 1) / 2) ≤ scoreAt entries child :=
    isBelow ▸ ordered.apart child childInside childPositive notHole (by omega)
  refine ⟨⟨?apart, ?across⟩, ?below⟩
  case apart =>
    intro child childInside childPositive notParent otherParent
    rw [Array.size_swapIfInBounds] at childInside
    rw [scores, scores, if_neg otherParent]
    have notHole : child ≠ hole := fun same => otherParent (same ▸ rfl)
    rw [if_neg notHole, if_neg notParent]
    split_ifs with isBelow
    · exact ordered.across positive child childInside childPositive isBelow
    · exact ordered.apart child childInside childPositive notHole isBelow
  case across =>
    intro parentPositive child childInside childPositive isBelow
    rw [Array.size_swapIfInBounds] at childInside
    have above := ordered.apart ((hole - 1) / 2) parentInside parentPositive (by omega) (by omega)
    rw [scores, scores, if_neg (by omega), if_neg (by omega)]
    split_ifs with isHole isParent
    · exact above
    · omega
    · exact above.trans (beside child childInside childPositive isHole isBelow)
  case below =>
    intro child childInside childPositive isBelow
    rw [Array.size_swapIfInBounds] at childInside
    rw [scores, scores, if_neg (by omega), if_pos rfl]
    split_ifs with isHole isParent
    · exact less.le
    · omega
    · exact less.le.trans (beside child childInside childPositive isHole isBelow)

/-- An entry rises to its place. -/
theorem rise_ordered {entries : Array (Entry (Exact K))} (finite : HasFiniteScores entries)
    {position : Nat} (inside : position < entries.size)
    (ordered : OrderedBelow entries position) : Ordered (rise entries position) := by
  fun_induction rise entries position with
  | case1 entries =>
      intro child childInside positive
      by_cases top : (child - 1) / 2 = 0
      · rw [top]
        exact ordered.below child childInside positive top
      · exact ordered.apart child childInside positive (by omega) top
  | case2 entries position notTop parent less ih =>
      have parentInside : parent < entries.size := by omega
      rw [isLess_iff finite inside parentInside] at less
      exact ih (finite.perm (swapIfInBounds_perm entries position parent))
        (by simpa using parentInside)
        (ordered.swap_parent inside (Nat.pos_of_ne_zero notTop) less)
  | case3 entries position notTop parent notLess =>
      have parentInside : parent < entries.size := by omega
      rw [isLess_iff finite inside parentInside] at notLess
      intro child childInside positive
      by_cases isHole : child = position
      · rw [isHole]
        exact not_lt.mp notLess
      · by_cases isBelow : (child - 1) / 2 = position
        · rw [isBelow]
          exact ordered.below child childInside positive isBelow
        · exact ordered.apart child childInside positive isHole isBelow

omit [FloorRing K] [Trigonometry K] in
/-- An entry sinks one level, past the lesser of the two entries below it. -/
theorem OrderedAround.swap_child {entries : Array (Entry (Exact K))} {hole child : Nat}
    (ordered : OrderedAround entries hole) (inside : child < entries.size)
    (isBelow : (child - 1) / 2 = hole) (positive : 0 < child)
    (least : ∀ other < entries.size, 0 < other → (other - 1) / 2 = hole →
      scoreAt entries child ≤ scoreAt entries other) :
    OrderedAround (entries.swapIfInBounds hole child) child := by
  have holeInside : hole < entries.size := by omega
  have scores := scoreAt_swapIfInBounds holeInside inside
  constructor
  · intro other otherInside otherPositive notChild notUnder
    rw [Array.size_swapIfInBounds] at otherInside
    rw [scores, scores, if_neg notUnder, if_neg notChild]
    split_ifs with underHole isHole isHole
    · omega
    · exact least other otherInside otherPositive underHole
    · have above := ordered.across (isHole ▸ otherPositive) child inside positive isBelow
      rwa [isHole]
    · exact ordered.apart other otherInside otherPositive isHole underHole
  · intro _ other otherInside otherPositive under
    rw [Array.size_swapIfInBounds] at otherInside
    rw [scores, scores, if_pos isBelow, if_neg (by omega), if_neg (by omega)]
    have beside := ordered.apart other otherInside otherPositive (by omega) (by omega)
    rwa [under] at beside

/-- An entry sinks to the bottom of the tree. -/
theorem sink_ordered {entries : Array (Entry (Exact K))} (finite : HasFiniteScores entries)
    {position : Nat} (inside : position < entries.size)
    (ordered : OrderedAround entries position) :
    (sink entries position).2 < entries.size ∧
      OrderedBelow (sink entries position).1 (sink entries position).2 := by
  fun_induction sink entries position with
  | case1 entries position left both child ih =>
      have first : left < entries.size := by omega
      have compare := isLess_iff finite first both
      have childCases : child = left ∧ scoreAt entries left < scoreAt entries (left + 1) ∨
          child = left + 1 ∧ scoreAt entries (left + 1) ≤ scoreAt entries left := by
        by_cases less : isLess entries left (left + 1) = true
        · exact .inl ⟨if_pos less, compare.mp less⟩
        · exact .inr ⟨if_neg less, not_lt.mp (compare.not.mp less)⟩
      have childInside : child < entries.size := by omega
      have swapped := ordered.swap_child childInside (by omega) (by omega)
        fun other otherInside otherPositive under => by
          have one : other = left ∨ other = left + 1 := by omega
          rcases childCases with ⟨isLeft, less⟩ | ⟨isRight, atMost⟩
          · rcases one with rfl | rfl
            · rw [isLeft]
            · rw [isLeft]
              exact less.le
          · rcases one with rfl | rfl
            · rw [isRight]
              exact atMost
            · rw [isRight]
      have result := ih (finite.perm (swapIfInBounds_perm ..)) (by simpa using childInside) swapped
      rwa [Array.size_swapIfInBounds] at result
  | case2 entries position left _ only =>
      have leftInside : left < entries.size := by omega
      refine ⟨leftInside, ordered.swap_child leftInside (by omega) (by omega) ?_, ?_⟩
      · intro other otherInside otherPositive under
        obtain rfl : other = left := by omega
        exact le_rfl
      · intro child childInside _ under
        rw [Array.size_swapIfInBounds] at childInside
        omega
  | case3 entries position left notBoth notOnly =>
      refine ⟨inside, ordered, ?_⟩
      intro child childInside positive under
      dsimp only at childInside under
      omega

omit [FloorRing K] [Trigonometry K] in
theorem Ordered.root_le {entries : Array (Entry (Exact K))} (ordered : Ordered entries)
    {position : Nat} (inside : position < entries.size) :
    scoreAt entries 0 ≤ scoreAt entries position := by
  induction position using Nat.strong_induction_on with
  | h position ih =>
      rcases Nat.eq_zero_or_pos position with rfl | positive
      · exact le_rfl
      · exact (ih ((position - 1) / 2) (by omega) (by omega)).trans
          (ordered position inside positive)

end Order

/-! ## What a heap does -/

section

variable {K : Type} [Field K] [LinearOrder K] [FloorRing K] [Trigonometry K]

/-- A heap whose scores are numbers, with none less than the one above it. -/
structure WellFormed (heap : Heap (Exact K)) : Prop where
  finite : HasFiniteScores heap.entries
  ordered : Ordered heap.entries

omit [FloorRing K] [Trigonometry K] in
theorem wellFormed_empty : (empty : Heap (Exact K)).WellFormed where
  finite := by simp [HasFiniteScores, empty]
  ordered := by simp [Ordered, empty]

theorem mem_push {heap : Heap (Exact K)} {node : Nat} {score : Exact K}
    {entry : Entry (Exact K)} :
    entry ∈ (heap.push node score).entries ↔ entry ∈ heap.entries ∨ entry = ⟨score, node⟩ := by
  rw [(push_perm heap node score).mem_iff, Array.mem_push]

theorem size_push (heap : Heap (Exact K)) (node : Nat) (score : Exact K) :
    (heap.push node score).entries.size = heap.entries.size + 1 := by
  rw [(push_perm heap node score).size_eq, Array.size_push]

theorem WellFormed.push {heap : Heap (Exact K)} (wellFormed : heap.WellFormed) (node : Nat)
    {score : K} : (heap.push node score).WellFormed := by
  have finite : HasFiniteScores (heap.entries.push ⟨score, node⟩) := by
    intro entry member
    rcases Array.mem_push.mp member with old | rfl
    · exact wellFormed.finite entry old
    · exact ⟨score, rfl⟩
  refine ⟨finite.perm (rise_perm ..), rise_ordered finite (by simp) ⟨⟨?_, ?_⟩, ?_⟩⟩
  · intro child childInside positive notLast _
    rw [Array.size_push] at childInside
    have same (position : Nat) (old : position < heap.entries.size) :
        scoreAt (heap.entries.push ⟨score, node⟩) position = scoreAt heap.entries position := by
      rw [scoreAt, scoreAt, Array.getElem?_push_lt old, Array.getElem?_eq_getElem old]
    rw [same _ (by omega), same _ (by omega)]
    exact wellFormed.ordered child (by omega) positive
  · intro _ child childInside _ under
    rw [Array.size_push] at childInside
    omega
  · intro child childInside _ under
    rw [Array.size_push] at childInside
    omega

theorem mem_pop? {heap rest : Heap (Exact K)} {first : Entry (Exact K)}
    (popped : heap.pop? = some (first, rest)) {entry : Entry (Exact K)} :
    entry ∈ heap.entries ↔ entry ∈ rest.entries ∨ entry = first := by
  rw [← (pop?_perm popped).mem_iff, Array.mem_push]

theorem size_pop? {heap rest : Heap (Exact K)} {first : Entry (Exact K)}
    (popped : heap.pop? = some (first, rest)) :
    heap.entries.size = rest.entries.size + 1 := by
  rw [← (pop?_perm popped).size_eq, Array.size_push]

theorem WellFormed.pop? {heap rest : Heap (Exact K)} {first : Entry (Exact K)}
    (wellFormed : heap.WellFormed) (popped : heap.pop? = some (first, rest)) :
    rest.WellFormed := by
  have perm := pop?_perm popped
  have finite : HasFiniteScores rest.entries := fun entry member =>
    wellFormed.finite entry ((mem_pop? popped).mpr (.inl member))
  refine ⟨finite, ?_⟩
  unfold Heap.pop? at popped
  split at popped
  · rename_i top last front back
    dsimp only at popped
    split_ifs at popped with isEmpty
    · cases popped
      exact wellFormed_empty.ordered
    · cases popped
      have size : (heap.entries.pop.setIfInBounds 0 last).size = heap.entries.size - 1 := by simp
      have several : 0 < heap.entries.size - 1 := by
        rw [← Array.size_pop]
        exact Array.size_pos_iff.mpr (by simpa using isEmpty)
      have same (position : Nat) (positive : 0 < position)
          (inside : position < heap.entries.size - 1) :
          scoreAt (heap.entries.pop.setIfInBounds 0 last) position =
            scoreAt heap.entries position := by
        rw [scoreAt, scoreAt, Array.getElem?_setIfInBounds_ne (by omega),
          Array.getElem?_pop, if_pos inside]
      have replaced : HasFiniteScores (heap.entries.pop.setIfInBounds 0 last) := by
        intro entry member
        exact finite entry (((rise_perm _ _).trans (sink_perm _ _)).mem_iff.mpr member)
      have around : OrderedAround (heap.entries.pop.setIfInBounds 0 last) 0 := by
        refine ⟨?_, fun impossible => absurd impossible (Nat.lt_irrefl 0)⟩
        intro child childInside positive _ notUnder
        rw [size] at childInside
        rw [same _ (by omega) (by omega), same _ positive childInside]
        exact wellFormed.ordered child (by omega) positive
      rcases sink_ordered replaced (by omega) around with ⟨inside, below⟩
      refine rise_ordered (replaced.perm (sink_perm ..)) ?_ below
      rwa [(sink_perm _ _).size_eq]
  · cases popped

/-- No entry has a lower score than the one that comes out. -/
theorem WellFormed.pop?_le {heap rest : Heap (Exact K)} {first : Entry (Exact K)}
    (wellFormed : heap.WellFormed) (popped : heap.pop? = some (first, rest)) :
    ∀ entry ∈ heap.entries, first.score ≤ entry.score := by
  intro entry member
  rcases Array.getElem?_of_mem member with ⟨position, found⟩
  have front : heap.entries[0]? = some first := by
    unfold Heap.pop? at popped
    split at popped
    · rename_i top last front back
      rw [front]
      dsimp only at popped
      split_ifs at popped <;> cases popped <;> rfl
    · cases popped
  rcases Array.getElem?_eq_some_iff.mp found with ⟨inside, -⟩
  rw [wellFormed.finite.score_eq found, wellFormed.finite.score_eq front,
    Exact.finite_le_finite]
  exact wellFormed.ordered.root_le inside

end

end JourneyTimes.Heap
