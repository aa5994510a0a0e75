import JourneyTimes.Proofs.Network.WellFormed
import JourneyTimes.Scalar.Double
import Mathlib.Data.List.Perm.Basic

/-!
# Adjacency within the arrays

The arrays of links by node are read and written without asking whether a place exists:
a read past the end gives a default there, and a write past the end is lost.  Here the
same steps are written again so that they fail at such a place.  They never do: every key
is a node, the next free slot of a node is one of its own as long as links of it are left,
and the links of a node end within the slots.

The links at a node are those that start there, in increasing order, and over all nodes
every link is found once.
-/

namespace JourneyTimes

namespace FirstOut

/-! ## Steps that may fail -/

/-- Write an entry at a place that exists. -/
def write? (entries : Array Nat) (place entry : Nat) : Option (Array Nat) :=
  if place < entries.size then some (entries.setIfInBounds place entry) else none

/-- The entries from one place up to another, if all of them exist. -/
def slice? (entries : Array Nat) (start stop : Nat) : Option (List Nat) :=
  if start ≤ stop ∧ stop ≤ entries.size then some (entries.extract start stop).toList else none

/-- Count the links of every node, if every key has its place. -/
def counts? (size : Nat) (keys : List Nat) : Option (Array Nat) :=
  keys.foldlM
    (fun counts key => do write? counts (key + 1) ((← counts[key + 1]?) + 1))
    (Array.replicate (size + 1) 0)

/-- Add the counts up, if there are as many as there should be. -/
def runningTotals? (size : Nat) (counts : Array Nat) : Option (Array Nat) :=
  (List.range size).foldlM
    (fun totals node => do
      write? totals (node + 1) ((← totals[node + 1]?) + (← totals[node]?)))
    counts

/-- Put a link into the next free slot of its node, if there is one. -/
def Filling.put? (filling : Filling) (key link : Nat) : Option Filling := do
  let slot ← filling.next[key]?
  let slots ← write? filling.slots slot link
  let next ← write? filling.next key (slot + 1)
  pure ⟨next, slots⟩

/-- Group links by node, if every array that is made on the way has the places that are
read and written. -/
def ofKeys? (size : Nat) (keys : List Nat) : Option FirstOut := do
  let first ← runningTotals? size (← counts? size keys)
  let filled ← keys.zipIdx.foldlM
    (fun filling entry => filling.put? entry.1 entry.2)
    (Filling.mk first (Array.replicate keys.length 0))
  pure ⟨first, filled.slots⟩

/-- The links of a node, if its beginning, its end and the slots between exist. -/
def linksAt? (adjacency : FirstOut) (node : Nat) : Option (List Nat) := do
  slice? adjacency.slots (← adjacency.first[node]?) (← adjacency.first[node + 1]?)

/-! ## No step fails -/

theorem getElem?_eq_getD {entries : Array Nat} {place : Nat} (inside : place < entries.size) :
    entries[place]? = some (entries.getD place 0) := by
  simp [inside]

/-- Reading an entry and writing it anew changes it. -/
theorem write?_eq_modify {entries : Array Nat} {place : Nat} (inside : place < entries.size)
    (change : Nat → Nat) :
    write? entries place (change (entries.getD place 0)) = some (entries.modify place change) := by
  rw [write?, if_pos inside, Option.some_inj]
  apply Array.ext_getElem?
  intro other
  rw [Array.getElem?_setIfInBounds, Array.getElem?_modify]
  by_cases same : place = other
  · subst same
    simp [inside]
  · simp [same]

/-- Steps that succeed wherever an invariant holds succeed one after another. -/
theorem foldlM_eq_some {σ ι : Type} {step? : σ → ι → Option σ} {step : σ → ι → σ}
    (Holds : σ → Prop) {items : List ι}
    (succeeds : ∀ state, Holds state → ∀ item ∈ items,
      step? state item = some (step state item) ∧ Holds (step state item))
    {start : σ} (holds : Holds start) :
    items.foldlM step? start = some (items.foldl step start) := by
  induction items generalizing start with
  | nil => rfl
  | cons item items ih =>
      rcases succeeds start holds item (List.mem_cons_self ..) with ⟨done, kept⟩
      rw [List.foldlM_cons, done, List.foldl_cons]
      exact ih (fun state holds other member =>
        succeeds state holds other (List.mem_cons_of_mem _ member)) kept

variable {size : Nat} {keys : List Nat}

theorem counts?_eq (inside : ∀ key ∈ keys, key < size) :
    counts? size keys = some (counts size keys) := by
  refine foldlM_eq_some (fun counts => counts.size = size + 1) ?_ (by simp)
  intro counts sized key member
  have place : key + 1 < counts.size := by
    have := inside key member
    omega
  refine ⟨?_, by simpa using sized⟩
  rw [getElem?_eq_getD place]
  exact write?_eq_modify place (· + 1)

theorem runningTotals?_eq {counts : Array Nat} (sized : counts.size = size + 1) :
    runningTotals? size counts = some (runningTotals size counts) := by
  refine foldlM_eq_some (fun totals => totals.size = size + 1) ?_ sized
  intro totals sized node member
  have place : node + 1 < totals.size := by
    have := List.mem_range.mp member
    omega
  refine ⟨?_, by simpa using sized⟩
  rw [getElem?_eq_getD place, getElem?_eq_getD (Nat.lt_of_succ_lt place)]
  exact write?_eq_modify place (· + totals.getD node 0)

/-- While links are left, the next free slot of their node exists. -/
theorem Filled.put?_eq {placed : List (Nat × Nat)} {filling : Filling}
    (filled : Filled size keys placed filling) {key link : Nat} (inside : key < size)
    (early : placed ++ [(key, link)] <+: keys.zipIdx) :
    filling.put? key link = some (filling.put key link) := by
  have known : key < filling.next.size := Nat.lt_trans inside filled.next_size
  have free : filling.next.getD key 0 < filling.slots.size := by
    have fits := length_positionsOf_le early key
    have total := below_le_length keys (key + 1)
    rw [below_succ] at total
    rw [positionsOf_append, if_pos rfl, List.length_append, List.length_singleton] at fits
    rw [filled.next key inside, filled.slots_size]
    omega
  rw [Filling.put?, getElem?_eq_getD known, Option.bind_eq_bind, Option.bind_some, write?,
    if_pos free, write?_eq_modify known (· + 1)]
  rfl

/-- Grouping links by node stays within the arrays. -/
theorem ofKeys?_eq (inside : ∀ key ∈ keys, key < size) :
    ofKeys? size keys = some (ofKeys size keys) := by
  have go (placed rest : List (Nat × Nat)) (filling : Filling)
      (whole : placed ++ rest = keys.zipIdx) (filled : Filled size keys placed filling) :
      rest.foldlM (fun filling entry => filling.put? entry.1 entry.2) filling =
        some (rest.foldl (fun filling entry => filling.put entry.1 entry.2) filling) := by
    induction rest generalizing placed filling with
    | nil => rfl
    | cons pair rest ih =>
        rcases pair with ⟨key, link⟩
        have member : (key, link) ∈ keys.zipIdx := by simp [← whole]
        have known := inside key (List.fst_mem_of_mem_zipIdx member)
        have early : placed ++ [(key, link)] <+: keys.zipIdx := ⟨rest, by simpa using whole⟩
        rw [List.foldlM_cons, filled.put?_eq known early]
        exact ih _ _ (by simpa using whole) (filled.put known early)
  have filled := go [] keys.zipIdx _ rfl (filled_start size keys)
  rw [ofKeys] at filled
  rw [ofKeys?, counts?_eq inside, Option.bind_eq_bind, Option.bind_some,
    runningTotals?_eq (size_counts size keys), Option.bind_eq_bind, Option.bind_some, filled]
  rfl

/-- Reading the links of a node stays within the arrays. -/
theorem linksAt?_eq (inside : ∀ key ∈ keys, key < size) {node : Nat} (known : node < size) :
    (ofKeys size keys).linksAt? node = some ((ofKeys size keys).linksAt node) := by
  have sized : (ofKeys size keys).first.size = size + 1 := size_first size keys
  have slots : (ofKeys size keys).slots.size = keys.length :=
    (filled_ofKeys size keys inside).slots_size
  have ordered := below_mono keys (Nat.le_succ node)
  have within := below_le_length keys (node + 1)
  rw [linksAt?, getElem?_eq_getD (by omega), Option.bind_eq_bind, Option.bind_some,
    getElem?_eq_getD (by omega), Option.bind_some, slice?, if_pos]
  · rfl
  · rw [getD_first size keys (Nat.le_of_lt known), getD_first size keys known, slots]
    exact ⟨ordered, within⟩

end FirstOut

namespace Graph

variable {α : Type}

/-- The links that leave the nodes, or those that enter them. -/
def adjacency (graph : Graph α) : Direction → FirstOut
  | .outgoing => graph.outgoing
  | .incoming => graph.incoming

/-- The links that leave or enter a node, if everything that is read on the way exists. -/
def linksAt? (graph : Graph α) (direction : Direction) (node : Nat) : Option (List (Link α)) := do
  (← (graph.adjacency direction).linksAt? node).mapM (graph.links[·]?)

/-- Looking items up succeeds if none is missing. -/
theorem mapM_eq_filterMap {β γ : Type} {look : β → Option γ} {items : List β}
    (found : ∀ item ∈ items, (look item).isSome) :
    items.mapM look = some (items.filterMap look) := by
  induction items with
  | nil => rfl
  | cons item items ih =>
      rcases List.forall_mem_cons.mp found with ⟨first, rest⟩
      rcases Option.isSome_iff_exists.mp first with ⟨value, here⟩
      rw [List.mapM_cons, here, ih rest, List.filterMap_cons, here]
      rfl

namespace WellFormed

variable {graph : Graph α} (wellFormed : graph.WellFormed) (direction : Direction)

include wellFormed

theorem adjacency_eq :
    graph.adjacency direction =
      FirstOut.ofKeys graph.size (graph.links.toList.map (·.start direction)) := by
  cases direction with
  | outgoing => exact wellFormed.outgoing_eq
  | incoming => exact wellFormed.incoming_eq

theorem keys_lt : ∀ key ∈ graph.links.toList.map (·.start direction), key < graph.size := by
  intro key member
  rcases List.mem_map.mp member with ⟨link, onList, rfl⟩
  exact wellFormed.start_lt (Array.mem_toList_iff.mp onList) direction

/-- Grouping the links of a graph stays within the arrays. -/
theorem ofKeys?_eq_adjacency :
    FirstOut.ofKeys? graph.size (graph.links.toList.map (·.start direction)) =
      some (graph.adjacency direction) := by
  rw [FirstOut.ofKeys?_eq (wellFormed.keys_lt direction), wellFormed.adjacency_eq]

/-- Looking up the links at a node stays within the arrays. -/
theorem linksAt?_eq {node : Nat} (known : node < graph.size) :
    graph.linksAt? direction node = some (graph.linksAt direction node) := by
  have inside := wellFormed.keys_lt direction
  have keyed := wellFormed.adjacency_eq direction
  have numbers : (graph.adjacency direction).linksAt node =
      FirstOut.positionsOf (graph.links.toList.map (·.start direction)).zipIdx node := by
    rw [keyed, FirstOut.linksAt_ofKeys _ _ inside known]
  have exist : ∀ number ∈ (graph.adjacency direction).linksAt node,
      (graph.links[number]?).isSome := by
    intro number member
    rw [numbers, FirstOut.positionsOf] at member
    rcases List.mem_map.mp member with ⟨pair, kept, rfl⟩
    have place := List.snd_lt_of_mem_zipIdx (List.mem_filter.mp kept).1
    simpa using place
  have read : (graph.adjacency direction).linksAt? node =
      some ((graph.adjacency direction).linksAt node) := by
    rw [keyed]
    exact FirstOut.linksAt?_eq inside known
  rw [linksAt?, read, Option.bind_eq_bind, Option.bind_some, mapM_eq_filterMap exist]
  cases direction <;> rfl

/-- The numbers of the links are their positions. -/
theorem map_index_links :
    graph.links.toList.map (·.index) = List.range graph.links.size := by
  apply List.ext_getElem?
  intro position
  rw [List.getElem?_map, Array.getElem?_toList]
  by_cases inside : position < graph.links.size
  · rw [List.getElem?_range inside, Array.getElem?_eq_getElem inside, Option.map_some,
      wellFormed.link_index position _ (Array.getElem?_eq_getElem inside)]
  · rw [Array.getElem?_eq_none (Nat.le_of_not_lt inside),
      List.getElem?_eq_none (by simpa using inside)]
    rfl

/-- The links at a node have increasing numbers. -/
theorem pairwise_linksAt {node : Nat} (known : node < graph.size) :
    ((graph.linksAt direction node).map (·.index)).Pairwise (· < ·) := by
  have increasing : (graph.links.toList.map (·.index)).Pairwise (· < ·) := by
    rw [wellFormed.map_index_links]
    exact List.pairwise_lt_range
  rw [wellFormed.linksAt_eq direction known]
  exact increasing.sublist (List.filter_sublist.map _)

end WellFormed

/-- Items that are grouped by the smaller keys are those with such a key, each once. -/
theorem flatMap_filter_perm {β : Type} (items : List β) (key : β → Nat) (bound : Nat) :
    ((List.range bound).flatMap fun node => items.filter (key · == node)).Perm
      (items.filter (key · < bound)) := by
  induction bound with
  | zero => simp
  | succ bound ih =>
      have below : (items.filter (key · < bound + 1)).filter (key · < bound) =
          items.filter (key · < bound) := by
        rw [List.filter_filter]
        refine List.filter_congr fun item _ => ?_
        simp only [← Bool.decide_and, decide_eq_decide]
        omega
      have last : (items.filter (key · < bound + 1)).filter
          (fun item => !decide (key item < bound)) = items.filter (key · == bound) := by
        rw [List.filter_filter]
        refine List.filter_congr fun item _ => ?_
        rw [← decide_not, ← Bool.decide_and, beq_eq_decide, decide_eq_decide]
        omega
      calc (List.range (bound + 1)).flatMap (fun node => items.filter (key · == node))
          = ((List.range bound).flatMap fun node => items.filter (key · == node)) ++
              items.filter (key · == bound) := by simp [List.range_succ]
        List.Perm _ (items.filter (key · < bound) ++ items.filter (key · == bound)) :=
            ih.append_right _
        List.Perm _ (items.filter (key · < bound + 1)) := by
            rw [← below, ← last]
            exact List.filter_append_perm _ _

/-- Over all nodes every link is found once. -/
theorem WellFormed.flatMap_linksAt_perm {graph : Graph α} (wellFormed : graph.WellFormed)
    (direction : Direction) :
    ((List.range graph.size).flatMap fun node =>
      (graph.linksAt direction node).map (·.index)).Perm (List.range graph.links.size) := by
  have each : (List.range graph.size).flatMap (graph.linksAt direction) =
      (List.range graph.size).flatMap fun node =>
        graph.links.toList.filter (·.start direction == node) :=
    List.flatMap_congr fun node member =>
      wellFormed.linksAt_eq direction (List.mem_range.mp member)
  have all : graph.links.toList.filter (·.start direction < graph.size) = graph.links.toList := by
    rw [List.filter_eq_self]
    intro link member
    exact decide_eq_true (wellFormed.start_lt (Array.mem_toList_iff.mp member) direction)
  rw [← wellFormed.map_index_links, ← List.map_flatMap, each]
  refine List.Perm.map _ ?_
  conv_rhs => rw [← all]
  exact flatMap_filter_perm _ _ _

/-- The links at a node are exactly those that start there, each once and in increasing
order, over all nodes every link is found once, and neither grouping the links nor looking
them up leaves the arrays. -/
theorem ofNetwork_linksAt {identity : Nat} {network : Network α} {graph : Graph α}
    (made : ofNetwork identity network = .ok graph) (direction : Direction) :
    (∀ node < graph.size,
      graph.linksAt direction node =
          graph.links.toList.filter (·.start direction == node) ∧
        ((graph.linksAt direction node).map (·.index)).Pairwise (· < ·)) ∧
      ((List.range graph.size).flatMap fun node =>
        (graph.linksAt direction node).map (·.index)).Perm (List.range graph.links.size) ∧
      FirstOut.ofKeys? graph.size (graph.links.toList.map (·.start direction)) =
        some (graph.adjacency direction) ∧
      ∀ node < graph.size,
        graph.linksAt? direction node = some (graph.linksAt direction node) := by
  have wellFormed := ofNetwork_wellFormed made
  refine ⟨fun node known => ⟨?exact, ?ordered⟩, ?complete, ?grouped, fun node known => ?read⟩
  case exact => exact wellFormed.linksAt_eq direction known
  case ordered => exact wellFormed.pairwise_linksAt direction known
  case complete => exact wellFormed.flatMap_linksAt_perm direction
  case grouped => exact wellFormed.ofKeys?_eq_adjacency direction
  case read => exact wellFormed.linksAt?_eq direction known

/-- Four crossings: two roads side by side, a road that leads back to where it begins, a
crossing without roads, and the last one that no road enters. -/
def crossroads [Scalar α] : Network α :=
  .ofParts
    [⟨"a", ⟨0, 0⟩⟩, ⟨"b", ⟨Scalar.ofNat 100, 0⟩⟩, ⟨"c", ⟨0, Scalar.ofNat 100⟩⟩,
      ⟨"d", ⟨Scalar.ofNat 200, 0⟩⟩]
    [.road "short" "a" "b" (Scalar.ofNat 100) (Scalar.ofNat 10),
      .road "round" "b" "b" (Scalar.ofNat 300) (Scalar.ofNat 10),
      .road "long" "a" "b" (Scalar.ofNat 150) (Scalar.ofNat 20),
      .road "back" "d" "b" (Scalar.ofNat 100) (Scalar.ofNat 10)]

theorem crossroads_wellFormed [Scalar α] : (crossroads : Network α).WellFormed := by
  refine Network.WellFormed.ofParts ?_
  simp [Network.Link.road]

theorem ofNetwork_linksAt_crossroads :
    ∃ graph : Graph Float, ofNetwork 0 crossroads = .ok graph ∧
      (∀ node < graph.size,
        graph.linksAt .incoming node =
            graph.links.toList.filter (·.start .incoming == node) ∧
          ((graph.linksAt .incoming node).map (·.index)).Pairwise (· < ·)) ∧
      ((List.range graph.size).flatMap fun node =>
        (graph.linksAt .incoming node).map (·.index)).Perm (List.range graph.links.size) ∧
      FirstOut.ofKeys? graph.size (graph.links.toList.map (·.start .incoming)) =
        some (graph.adjacency .incoming) ∧
      ∀ node < graph.size,
        graph.linksAt? .incoming node = some (graph.linksAt .incoming node) := by
  rcases (crossroads_wellFormed (α := Float)).exists_graph 0 with ⟨graph, made⟩
  exact ⟨graph, made, ofNetwork_linksAt made .incoming⟩

end Graph

end JourneyTimes
