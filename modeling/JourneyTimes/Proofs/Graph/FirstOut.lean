import JourneyTimes.Graph.FirstOut
import Mathlib.Data.List.Basic

/-!
# First-out adjacency is complete, exact and ordered

The counting sort puts the links of a node next to each other: they begin
where as many slots are taken as there are links of smaller nodes.  The places
of different nodes are disjoint, so the links of a node are exactly those that
were put there, in the order in which they came.
-/

namespace JourneyTimes.FirstOut

/-- How many keys are smaller than a node. -/
def below (keys : List Nat) (node : Nat) : Nat := keys.countP (· < node)

/-- The positions at which a key occurs, in increasing order. -/
def positionsOf (keyed : List (Nat × Nat)) (node : Nat) : List Nat :=
  (keyed.filter fun pair => pair.1 == node).map (·.2)

theorem below_zero (keys : List Nat) : below keys 0 = 0 := by
  simp [below]

theorem below_succ (keys : List Nat) (node : Nat) :
    below keys (node + 1) = below keys node + keys.count node := by
  induction keys with
  | nil => rfl
  | cons key keys ih =>
      simp only [below, List.countP_cons, List.count_cons, decide_eq_true_eq,
        beq_iff_eq] at ih ⊢
      split_ifs <;> omega

theorem below_mono (keys : List Nat) {left right : Nat} (le : left ≤ right) :
    below keys left ≤ below keys right := by
  apply List.countP_mono_left
  intro key _ less
  simp only [decide_eq_true_eq] at less ⊢
  omega

theorem below_le_length (keys : List Nat) (node : Nat) :
    below keys node ≤ keys.length := List.countP_le_length

/-! ## Beginnings -/

theorem size_counts (size : Nat) (keys : List Nat) :
    (counts size keys).size = size + 1 := by
  have keep (start : Array Nat) :
      (keys.foldl (fun counts key => counts.modify (key + 1) (· + 1)) start).size =
        start.size := by
    induction keys generalizing start with
    | nil => rfl
    | cons key keys ih => simp [ih]
  simp [counts, keep]

theorem getD_modify (array : Array Nat) (index other : Nat) (change : Nat → Nat)
    (inside : other < array.size) :
    (array.modify index change).getD other 0 =
      if index = other then change (array.getD other 0) else array.getD other 0 := by
  simp only [Array.getD_eq_getD_getElem?, Array.getElem?_modify]
  split <;> simp [inside]

theorem getD_counts (size : Nat) (keys : List Nat) {place : Nat} (inside : place ≤ size) :
    (counts size keys).getD place 0 = keys.countP (fun key => key + 1 = place) := by
  have total (start : Array Nat) (bound : place < start.size) :
      (keys.foldl (fun counts key => counts.modify (key + 1) (· + 1)) start).getD place 0 =
        start.getD place 0 + keys.countP (fun key => key + 1 = place) := by
    induction keys generalizing start with
    | nil => simp
    | cons key keys ih =>
        rw [List.foldl_cons, ih _ (by simpa using bound), getD_modify _ _ _ _ bound,
          List.countP_cons]
        simp only [decide_eq_true_eq]
        split_ifs <;> omega
  rw [counts, total _ (by simp; omega)]
  simp [Array.getD_eq_getD_getElem?, Nat.lt_succ_of_le inside]

theorem size_runningTotals (nodes : Nat) (counts : Array Nat) :
    (runningTotals nodes counts).size = counts.size := by
  induction nodes with
  | zero => simp [runningTotals]
  | succ nodes ih => simpa [runningTotals, List.range_succ] using ih

/-- There is a beginning for every node, and one more for the end. -/
theorem size_first (size : Nat) (keys : List Nat) : (ofKeys size keys).first.size = size + 1 := by
  rw [ofKeys, size_runningTotals, size_counts]

/-- The beginnings after the counts of some nodes have been added up. -/
theorem getD_runningTotals (size nodes : Nat) (keys : List Nat) (bound : nodes ≤ size)
    {place : Nat} (inside : place ≤ size) :
    (runningTotals nodes (counts size keys)).getD place 0 =
      if place ≤ nodes then below keys place else (counts size keys).getD place 0 := by
  induction nodes generalizing place with
  | zero =>
      rcases Nat.eq_zero_or_pos place with rfl | pos
      · simp [runningTotals, below_zero, getD_counts size keys inside]
      · simp [runningTotals, Nat.not_le_of_gt pos]
  | succ nodes ih =>
      have step : runningTotals (nodes + 1) (counts size keys) =
          (runningTotals nodes (counts size keys)).modify (nodes + 1)
            (· + (runningTotals nodes (counts size keys)).getD nodes 0) := by
        simp [runningTotals, List.range_succ]
      have own : (counts size keys).getD (nodes + 1) 0 = keys.count nodes := by
        rw [getD_counts size keys (by omega)]
        simp [List.count, BEq.beq]
      rw [step, getD_modify _ _ _ _ (by rw [size_runningTotals, size_counts]; omega),
        ih (by omega) inside, ih (by omega) (by omega : nodes ≤ size), if_pos (Nat.le_refl _)]
      rcases Nat.lt_trichotomy place (nodes + 1) with before | same | after
      · rw [if_neg (by omega), if_pos (by omega), if_pos (by omega)]
      · subst same
        rw [if_pos rfl, if_neg (by omega), if_pos (Nat.le_refl _), own, below_succ]
        omega
      · rw [if_neg (by omega), if_neg (by omega), if_neg (by omega)]

/-- The links of a node begin after those of all smaller nodes. -/
theorem getD_first (size : Nat) (keys : List Nat) {node : Nat} (inside : node ≤ size) :
    (ofKeys size keys).first.getD node 0 = below keys node := by
  rw [ofKeys, getD_runningTotals size size keys (Nat.le_refl size) inside, if_pos inside]

/-! ## Slots -/

/-- What holds while links are put into slots: the next free slot of a node
comes after those of its links so far, and these are in their slots. -/
structure Filled (size : Nat) (keys : List Nat) (placed : List (Nat × Nat))
    (filling : Filling) : Prop where
  next_size : size < filling.next.size
  slots_size : filling.slots.size = keys.length
  next : ∀ node < size,
    filling.next.getD node 0 = below keys node + (positionsOf placed node).length
  slots : ∀ node < size, ∀ (place link : Nat),
    (positionsOf placed node)[place]? = some link →
      filling.slots[below keys node + place]? = some link

theorem positionsOf_append (placed : List (Nat × Nat)) (key link node : Nat) :
    positionsOf (placed ++ [(key, link)]) node =
      if key = node then positionsOf placed node ++ [link] else positionsOf placed node := by
  simp only [positionsOf, List.filter_append, List.map_append, List.filter_cons,
    List.filter_nil, beq_iff_eq]
  split <;> simp

theorem length_positionsOf (keys : List Nat) (node : Nat) :
    (positionsOf keys.zipIdx node).length = keys.count node := by
  have fsts : keys.zipIdx.map Prod.fst = keys := by simp
  conv_rhs => rw [← fsts]
  rw [positionsOf, List.length_map, List.count, List.countP_map, List.countP_eq_length_filter]
  rfl

/-- No more links are put into the slots of a node than there are. -/
theorem length_positionsOf_le {keys : List Nat} {placed : List (Nat × Nat)}
    (early : placed <+: keys.zipIdx) (node : Nat) :
    (positionsOf placed node).length ≤ keys.count node := by
  rw [← length_positionsOf]
  exact ((early.sublist.filter _).map _).length_le

/-- The next free slot of one node is none that a link of any node has been put into. -/
theorem free_ne_taken {keys : List Nat} {placed : List (Nat × Nat)} {key link : Nat}
    (early : placed ++ [(key, link)] <+: keys.zipIdx) {node place : Nat}
    (taken : place < (positionsOf placed node).length) :
    below keys key + (positionsOf placed key).length ≠ below keys node + place := by
  have fits := length_positionsOf_le early key
  have more := length_positionsOf_le
    ((List.prefix_append placed [(key, link)]).trans early) node
  rw [positionsOf_append, if_pos rfl, List.length_append, List.length_singleton] at fits
  rcases Nat.lt_trichotomy key node with less | same | greater
  · have order := below_mono keys (Nat.succ_le_of_lt less)
    rw [below_succ] at order
    omega
  · subst same
    omega
  · have order := below_mono keys (Nat.succ_le_of_lt greater)
    rw [below_succ] at order
    omega

theorem Filled.put {size : Nat} {keys : List Nat} {placed : List (Nat × Nat)}
    {filling : Filling} (filled : Filled size keys placed filling) {key link : Nat}
    (inside : key < size) (early : placed ++ [(key, link)] <+: keys.zipIdx) :
    Filled size keys (placed ++ [(key, link)]) (filling.put key link) where
  next_size := by simpa [Filling.put] using filled.next_size
  slots_size := by simpa [Filling.put] using filled.slots_size
  next := by
    intro node nodeInside
    have bound : node < filling.next.size := Nat.lt_trans nodeInside filled.next_size
    rw [Filling.put, getD_modify _ _ _ _ bound, filled.next node nodeInside,
      positionsOf_append]
    split <;> simp
    omega
  slots := by
    intro node nodeInside place found stored
    have target := filled.next key inside
    have old (stored : (positionsOf placed node)[place]? = some found) :
        (filling.put key link).slots[below keys node + place]? = some found := by
      have apart := free_ne_taken early (List.getElem?_eq_some_iff.mp stored).1
      rw [← target] at apart
      rw [Filling.put, Array.getElem?_setIfInBounds_ne apart]
      exact filled.slots node nodeInside place found stored
    rw [positionsOf_append] at stored
    split at stored
    · rename_i same
      subst same
      rw [List.getElem?_append] at stored
      split at stored
      · exact old stored
      · rename_i late
        obtain ⟨rfl, rfl⟩ : place = (positionsOf placed key).length ∧ found = link := by
          rw [List.getElem?_singleton] at stored
          split at stored
          · exact ⟨by omega, by simpa using stored.symm⟩
          · simp at stored
        have fits := length_positionsOf_le early key
        rw [positionsOf_append, if_pos rfl, List.length_append, List.length_singleton] at fits
        have before := below_le_length keys (key + 1)
        rw [below_succ] at before
        rw [Filling.put, target, Array.getElem?_setIfInBounds_self,
          if_pos (by rw [filled.slots_size]; omega)]
    · exact old stored

/-- Before any link is put, the next free slot of a node is its first. -/
theorem filled_start (size : Nat) (keys : List Nat) :
    Filled size keys [] (Filling.mk (ofKeys size keys).first (Array.replicate keys.length 0)) where
  next_size := by simp [size_first]
  slots_size := by simp
  next := by
    intro node nodeInside
    simpa [positionsOf] using getD_first size keys (Nat.le_of_lt nodeInside)
  slots := by simp [positionsOf]

/-- All links are in their slots once every link has been put. -/
theorem filled_ofKeys (size : Nat) (keys : List Nat) (inside : ∀ key ∈ keys, key < size) :
    Filled size keys keys.zipIdx
      (keys.zipIdx.foldl (fun filling (key, link) => filling.put key link)
        (Filling.mk (ofKeys size keys).first (Array.replicate keys.length 0))) := by
  have go (placed rest : List (Nat × Nat)) (filling : Filling)
      (whole : placed ++ rest = keys.zipIdx) (filled : Filled size keys placed filling) :
      Filled size keys keys.zipIdx
        (rest.foldl (fun filling (key, link) => filling.put key link) filling) := by
    induction rest generalizing placed filling with
    | nil => simpa [← whole] using filled
    | cons pair rest ih =>
        rcases pair with ⟨key, link⟩
        have member : (key, link) ∈ keys.zipIdx := by simp [← whole]
        refine ih (placed ++ [(key, link)]) _ (by simpa using whole) (filled.put ?_ ?_)
        · exact inside key (List.fst_mem_of_mem_zipIdx member)
        · exact ⟨rest, by simpa using whole⟩
  exact go [] _ _ rfl (filled_start size keys)

/-- The links of a node are the positions at which it is the key, in
increasing order. -/
theorem linksAt_ofKeys (size : Nat) (keys : List Nat) (inside : ∀ key ∈ keys, key < size)
    {node : Nat} (nodeInside : node < size) :
    (ofKeys size keys).linksAt node = positionsOf keys.zipIdx node := by
  have filled := filled_ofKeys size keys inside
  have count := length_positionsOf keys node
  have total := below_le_length keys (node + 1)
  rw [below_succ] at total
  rw [linksAt, getD_first size keys (Nat.le_of_lt nodeInside),
    getD_first size keys (Nat.succ_le_of_lt nodeInside), below_succ]
  apply List.ext_getElem?
  intro place
  have slots : (ofKeys size keys).slots.size = keys.length := filled.slots_size
  rw [Array.getElem?_toList, Array.getElem?_extract, slots]
  by_cases short : place < keys.count node
  · have stored := List.getElem?_eq_getElem (count ▸ short :
      place < (positionsOf keys.zipIdx node).length)
    rw [if_pos (by omega), stored]
    exact filled.slots node nodeInside place _ stored
  · rw [if_neg (by omega), List.getElem?_eq_none (by omega)]

end JourneyTimes.FirstOut
