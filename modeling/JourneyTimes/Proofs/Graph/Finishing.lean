import JourneyTimes.Proofs.Graph.Relation

/-!
# The backward pass

The backward pass keeps a stack.  A node is open from the time when it is entered until the
pass is done with it.  It stays on the stack all that time, and what lies above it reaches
it.  So when the pass is done with a node, and another one that leads to it stays open, the
two nodes are together.

What comes of this is an order in which the pass is done with the nodes.  Whenever it is
done with a whole component, it is done with everything that reaches it.
-/

namespace JourneyTimes.Components

variable {relation : Relation}

/-- Whatever reaches a component that lies within these nodes lies within them too. -/
def Relation.TakesOrigins (relation : Relation) (nodes : List Nat) : Prop :=
  ∀ node ∈ nodes, (∀ other, relation.Together node other → other ∈ nodes) →
    ∀ origin, relation.Reaches origin node → origin ∈ nodes

/-- Begin at a node, unless it has been entered. -/
def Finishing.visit (relation : Relation) (state : Finishing) (node : Nat) : Finishing :=
  if state.discovered.getD node true then state
  else finish relation relation.steps [node] state

/-- A node that has been entered, and that the pass is not done with. -/
structure Finishing.IsOpen (state : Finishing) (node : Nat) : Prop where
  inside : node < state.discovered.size
  entered : IsEntered state.discovered node
  unfinished : node ∉ state.finished

/-- What the stack of the backward pass is good for, when all nodes below a number have been
put on it some time: open nodes lie on it, and above an open node lies what reaches it, with
all that leads to it and is new. -/
structure Stacked (relation : Relation) (count : Nat) (stack : List Nat) (state : Finishing) :
    Prop where
  sized : state.discovered.size = relation.size
  lt_size : ∀ node ∈ stack, node < relation.size
  begun : ∀ node < count, IsEntered state.discovered node ∨ node ∈ stack
  mem_stack : ∀ node, state.IsOpen node → node ∈ stack
  above : ∀ above node below, stack = above ++ node :: below → node ∉ above →
    state.IsOpen node → (∀ later ∈ above, relation.Reaches later node) ∧
      ∀ previous, relation.Leads previous node →
        IsEntered state.discovered previous ∨ previous ∈ above

/-- What holds at every step of the backward pass: all that leads to a node that it is done
with has been entered, and the node is together with an open one unless the pass is done with
all that reaches it. -/
structure Descends (relation : Relation) (count : Nat) (stack : List Nat) (state : Finishing) :
    Prop extends Stacked relation count stack state where
  nodup : state.finished.Nodup
  entered : ∀ node ∈ state.finished, node < relation.size ∧ IsEntered state.discovered node
  closed : ∀ node ∈ state.finished, ∀ previous, relation.Leads previous node →
    IsEntered state.discovered previous
  tied : ∀ node ∈ state.finished,
    (∀ origin, relation.Reaches origin node → origin ∈ state.finished) ∨
      ∃ other, state.IsOpen other ∧ relation.Together node other
  nested : ∀ late early, state.finished = late ++ early → relation.TakesOrigins early

variable {count : Nat} {stack rest : List Nat} {node : Nat} {state : Finishing}

/-! ## Stacks -/

namespace Stacked

/-- A node that is entered is taken off the stack, and is not open after that. -/
theorem pop (stacked : Stacked relation count (node :: rest) state)
    (known : IsEntered state.discovered node) {next : Finishing}
    (same : next.discovered = state.discovered)
    (open_of : ∀ other, next.IsOpen other → state.IsOpen other ∧ other ≠ node) :
    Stacked relation count rest next := by
  have still {other : Nat} {above : List Nat}
      (before : IsEntered state.discovered other ∨ other ∈ node :: above) :
      IsEntered next.discovered other ∨ other ∈ above := by
    rw [same]
    rcases before with entered | member
    · exact .inl entered
    · rcases List.mem_cons.mp member with rfl | later
      · exact .inl known
      · exact .inr later
  constructor
  case sized => rw [same, stacked.sized]
  case lt_size => exact fun other member => stacked.lt_size other (List.mem_cons_of_mem _ member)
  case begun => exact fun other below => still (stacked.begun other below)
  case mem_stack =>
    intro other isOpen
    rcases open_of other isOpen with ⟨wasOpen, apart⟩
    exact List.mem_of_ne_of_mem apart (stacked.mem_stack other wasOpen)
  case above =>
    rintro above other below rfl first isOpen
    rcases open_of other isOpen with ⟨wasOpen, apart⟩
    rcases stacked.above (node :: above) other below rfl
      (List.not_mem_cons_of_ne_of_not_mem apart first) wasOpen with ⟨reach, waits⟩
    exact ⟨fun later member => reach later (List.mem_cons_of_mem _ member),
      fun previous leads => still (waits previous leads)⟩

/-- A new node on top is entered, and what leads to it and is new is put on the stack. -/
theorem push (stacked : Stacked relation count (node :: rest) state)
    (consistent : relation.Consistent) {next : Finishing}
    (entered_iff : ∀ other, IsEntered next.discovered other ↔
      other = node ∨ IsEntered state.discovered other)
    (sized : next.discovered.size = relation.size)
    (open_of : ∀ other, next.IsOpen other → other = node ∨ state.IsOpen other)
    {previous : List Nat} (mem_previous : ∀ other, other ∈ previous ↔
      relation.Leads other node ∧ ¬ IsEntered next.discovered other) :
    Stacked relation count (previous ++ node :: rest) next := by
  have here : (∀ later ∈ previous, relation.Reaches later node) ∧
      ∀ origin, relation.Leads origin node →
        IsEntered next.discovered origin ∨ origin ∈ previous := by
    refine ⟨fun later member => .single ((mem_previous later).mp member).1, ?_⟩
    intro origin leads
    exact or_iff_not_imp_left.mpr fun fresh => (mem_previous origin).mpr ⟨leads, fresh⟩
  constructor
  case sized => exact sized
  case lt_size =>
    intro other member
    rcases List.mem_append.mp member with new | old
    · exact consistent.origin_lt ((mem_previous other).mp new).1
    · exact stacked.lt_size other old
  case begun =>
    intro other below
    rw [entered_iff, List.mem_append]
    exact (stacked.begun other below).imp .inr .inr
  case mem_stack =>
    intro other isOpen
    refine List.mem_append_right _ ?_
    rcases open_of other isOpen with rfl | wasOpen
    · exact List.mem_cons_self ..
    · exact stacked.mem_stack other wasOpen
  case above =>
    intro above other below split first isOpen
    rcases List.append_eq_append_iff.mp split with ⟨between, rfl, lower⟩ | ⟨between, upper, lower⟩
    · rcases between with _ | ⟨top, between⟩
      · cases lower
        simpa using here
      · cases lower
        -- An open node further down was open before, and the one on top reaches it.
        have apart : other ≠ node := by
          rintro rfl
          simp at first
        have wasOpen := (open_of other isOpen).resolve_left apart
        rcases stacked.above (node :: between) other below rfl
          (fun member => first (List.mem_append_right _ member)) wasOpen with ⟨reach, waits⟩
        refine ⟨List.forall_mem_append.mpr ⟨fun later member => ?_, reach⟩, fun origin leads => ?_⟩
        · exact (here.1 later member).trans (reach node (List.mem_cons_self ..))
        · rw [entered_iff, List.mem_append]
          exact (waits origin leads).imp .inr .inr
    · rcases between with _ | ⟨top, between⟩
      · cases lower
        rw [List.append_nil] at upper
        exact upper ▸ here
      · cases lower
        have new := (mem_previous other).mp (upper ▸ by simp)
        exact absurd isOpen.entered new.2

end Stacked

/-! ## Steps -/

namespace Descends

/-- Before the pass begins nothing has been entered. -/
protected theorem start (relation : Relation) :
    Descends relation 0 [] ⟨Array.replicate relation.size false, []⟩ where
  sized := Array.size_replicate
  lt_size := by simp
  begun := by simp
  mem_stack := by
    intro node isOpen
    have inside : node < relation.size := by simpa using isOpen.inside
    exact absurd isOpen.entered (isEntered_replicate inside)
  above := by simp
  nodup := .nil
  entered := by simp
  closed := by simp
  tied := by simp
  nested := by
    intro late early split
    have none : early = [] := (List.append_eq_nil_iff.mp split.symm).2
    simp [Relation.TakesOrigins, none]

/-- A node that is not entered yet begins a stack. -/
theorem begin (descends : Descends relation count [] state) (inside : count < relation.size) :
    Descends relation (count + 1) [count] state :=
  { descends with
    lt_size := by simpa using inside
    begun := by
      intro node below
      rcases Nat.lt_succ_iff_lt_or_eq.mp below with earlier | rfl
      · exact .inl ((descends.begun node earlier).resolve_right List.not_mem_nil)
      · exact .inr (List.mem_singleton_self _)
    mem_stack := fun node isOpen => absurd (descends.mem_stack node isOpen) List.not_mem_nil
    above := fun _ node _ _ _ isOpen =>
      absurd (descends.mem_stack node isOpen) List.not_mem_nil }

/-- A node that the pass is done with is taken off the stack. -/
theorem skip (descends : Descends relation count (node :: rest) state)
    (known : IsEntered state.discovered node) (finished : node ∈ state.finished) :
    Descends relation count rest state := by
  have stacked : Stacked relation count rest state := by
    refine descends.pop known rfl fun other isOpen => ⟨isOpen, ?_⟩
    rintro rfl
    exact isOpen.unfinished finished
  exact { descends with toStacked := stacked }

/-- When the pass is done with the node on top, either it is done with everything that
reaches the node, or the node is together with one that stays open. -/
theorem tied_of_top (consistent : relation.Consistent)
    (descends : Descends relation count (node :: rest) state) (isOpen : state.IsOpen node) :
    (∀ origin, relation.Reaches origin node → origin ∈ node :: state.finished) ∨
      ∃ other, state.IsOpen other ∧ other ≠ node ∧ relation.Together node other := by
  by_contra! neither
  rcases neither with ⟨⟨outside, reaches, unfinished⟩, alone⟩
  apply unfinished
  clear unfinished
  -- Along the way to the node, from its end to its beginning.
  induction reaches using Relation.ReflTransGen.head_induction_on with
  | refl => exact List.mem_cons_self ..
  | @head origin next leads onwards ih =>
      by_contra unfinished
      rcases not_or.mp (List.mem_cons.not.mp unfinished) with ⟨apart, notFinished⟩
      have entered : IsEntered state.discovered origin := by
        rcases List.mem_cons.mp ih with rfl | finished
        · have bare := descends.above [] next rest rfl List.not_mem_nil isOpen
          exact (bare.2 origin leads).resolve_right List.not_mem_nil
        · exact descends.closed next finished origin leads
      have stays : state.IsOpen origin :=
        ⟨descends.sized ▸ consistent.origin_lt leads, entered, notFinished⟩
      have below := List.mem_of_ne_of_mem apart (descends.mem_stack origin stays)
      rcases List.eq_append_cons_of_mem below with ⟨above, lower, rfl, first⟩
      have reach := (descends.above (node :: above) origin lower rfl
        (List.not_mem_cons_of_ne_of_not_mem apart first) stays).1 node (List.mem_cons_self ..)
      exact alone origin stays apart ⟨reach, onwards.head leads⟩

/-- The pass is done with the node on top when it is open. -/
theorem close (consistent : relation.Consistent)
    (descends : Descends relation count (node :: rest) state) (isOpen : state.IsOpen node) :
    Descends relation count rest { state with finished := node :: state.finished } := by
  have openIff (other : Nat) :
      Finishing.IsOpen { state with finished := node :: state.finished } other ↔
        state.IsOpen other ∧ other ≠ node := by
    constructor
    · rintro ⟨inside, entered, unfinished⟩
      rcases not_or.mp (List.mem_cons.not.mp unfinished) with ⟨apart, notFinished⟩
      exact ⟨⟨inside, entered, notFinished⟩, apart⟩
    · rintro ⟨⟨inside, entered, notFinished⟩, apart⟩
      exact ⟨inside, entered, List.not_mem_cons_of_ne_of_not_mem apart notFinished⟩
  have tied : ∀ other ∈ node :: state.finished,
      (∀ origin, relation.Reaches origin other → origin ∈ node :: state.finished) ∨
        ∃ last, Finishing.IsOpen { state with finished := node :: state.finished } last ∧
          relation.Together other last := by
    simp only [openIff]
    have top := descends.tied_of_top consistent isOpen
    intro other member
    rcases List.mem_cons.mp member with rfl | old
    · exact top.imp_right fun ⟨last, isOpen, apart, together⟩ => ⟨last, ⟨isOpen, apart⟩, together⟩
    rcases descends.tied other old with all | ⟨last, lastOpen, together⟩
    · exact .inl fun origin reaches => List.mem_cons_of_mem _ (all origin reaches)
    by_cases apart : last = node
    · subst apart
      -- The open node was the one on top, so what holds of that one holds here too.
      rcases top with all | ⟨next, nextOpen, apart, onwards⟩
      · exact .inl fun origin reaches => all origin (reaches.trans together.1)
      · exact .inr ⟨next, ⟨nextOpen, apart⟩, together.trans onwards⟩
    · exact .inr ⟨last, ⟨lastOpen, apart⟩, together⟩
  constructor
  case toStacked =>
    exact descends.pop isOpen.entered rfl fun other => (openIff other).mp
  case nodup => exact List.nodup_cons.mpr ⟨isOpen.unfinished, descends.nodup⟩
  case entered =>
    exact List.forall_mem_cons.mpr
      ⟨⟨descends.lt_size node (List.mem_cons_self ..), isOpen.entered⟩, descends.entered⟩
  case closed =>
    refine List.forall_mem_cons.mpr ⟨fun previous leads => ?_, descends.closed⟩
    exact ((descends.above [] node rest rfl List.not_mem_nil isOpen).2 previous leads).resolve_right
      List.not_mem_nil
  case tied => exact tied
  case nested =>
    intro late early split
    rcases List.cons_eq_append_iff.mp split with ⟨-, rfl⟩ | ⟨later, -, split⟩
    · intro other member whole
      rcases tied other member with all | ⟨last, lastOpen, together⟩
      · exact all
      · exact absurd (whole last together) lastOpen.unfinished
    · exact descends.nested later early split

/-- The pass enters the node on top when it is new. -/
theorem enter (consistent : relation.Consistent)
    (descends : Descends relation count (node :: rest) state) {previous : List Nat}
    (mem_previous : ∀ other, other ∈ previous ↔ relation.Leads other node ∧
      ¬ IsEntered (state.discovered.setIfInBounds node true) other) :
    Descends relation count (previous ++ node :: rest)
      { state with discovered := state.discovered.setIfInBounds node true } := by
  have enteredIff (other : Nat) :
      IsEntered (state.discovered.setIfInBounds node true) other ↔
        other = node ∨ IsEntered state.discovered other := isEntered_set ..
  constructor
  case toStacked =>
    refine descends.push consistent enteredIff (by simpa using descends.sized) ?_ mem_previous
    rintro other ⟨inside, entered, notFinished⟩
    exact ((enteredIff other).mp entered).imp_right fun old =>
      ⟨by simpa using inside, old, notFinished⟩
  case nodup => exact descends.nodup
  case entered =>
    intro other member
    rcases descends.entered other member with ⟨inside, entered⟩
    exact ⟨inside, (enteredIff other).mpr (.inr entered)⟩
  case closed =>
    intro other member origin leads
    exact (enteredIff origin).mpr (.inr (descends.closed other member origin leads))
  case tied =>
    intro other member
    refine (descends.tied other member).imp_right fun ⟨last, lastOpen, together⟩ => ?_
    exact ⟨last, ⟨by simpa using lastOpen.inside, (enteredIff last).mpr (.inr lastOpen.entered),
      lastOpen.unfinished⟩, together⟩
  case nested => exact descends.nested

/-! ## The whole pass -/

/-- The pass works off its stack. -/
theorem finish (consistent : relation.Consistent) {fuel : Nat}
    (descends : Descends relation count stack state)
    (enough : stack.length + load relation.predecessors state.discovered ≤ fuel) :
    Descends relation count [] (Components.finish relation fuel stack state) := by
  induction fuel generalizing stack state with
  | zero =>
      obtain rfl : stack = [] := List.eq_nil_of_length_eq_zero (by omega)
      exact descends
  | succ fuel ih =>
      cases stack with
      | nil => exact descends
      | cons node rest =>
          rw [List.length_cons] at enough
          rw [Components.finish]
          split_ifs with known finished
          · exact ih (descends.skip known (List.contains_iff_mem.mp finished)) (by omega)
          · refine ih (descends.close consistent ⟨?_, known, ?_⟩) (by dsimp only; omega)
            · exact descends.sized ▸ descends.lt_size node (List.mem_cons_self ..)
            · rwa [List.contains_iff_mem] at finished
          · have fewer := load_set relation.predecessors known
            have few := List.length_filter_le
              (fun previous => !(state.discovered.setIfInBounds node true).getD previous true)
              (relation.predecessors.getD node [])
            refine ih (descends.enter consistent fun other => ?_) ?_
            · rw [List.mem_reverse, List.mem_filter, consistent.mem_predecessors, IsEntered,
                Bool.not_eq_true', Bool.not_eq_true]
            · rw [List.length_append, List.length_reverse, List.length_cons]
              dsimp only
              omega

/-- The pass begins at the next node, if that is new. -/
theorem visit (consistent : relation.Consistent) (descends : Descends relation count [] state)
    (inside : count < relation.size) :
    Descends relation (count + 1) [] (state.visit relation count) := by
  have begun := descends.begin inside
  unfold Finishing.visit
  split_ifs with known
  · refine { descends with begun := fun node below => ?_ }
    rcases begun.begun node below with entered | member
    · exact .inl entered
    · exact .inl (List.mem_singleton.mp member ▸ known)
  · exact begun.finish consistent (consistent.load_le_steps (.inl rfl) descends.sized)

theorem upto (consistent : relation.Consistent) (within : count ≤ relation.size) :
    Descends relation count [] ((List.range count).foldl (Finishing.visit relation)
      ⟨Array.replicate relation.size false, []⟩) := by
  induction count with
  | zero => exact .start relation
  | succ count ih =>
      rw [List.range_succ, List.foldl_concat]
      exact (ih (by omega)).visit consistent within

end Descends

/-- An order of all nodes.  Any part at the end of it takes the origins of the components
within that part. -/
structure Relation.IsFinishOrder (relation : Relation) (order : List Nat) : Prop where
  nodup : order.Nodup
  mem_iff : ∀ node, node ∈ order ↔ node < relation.size
  nested : ∀ late early, order = late ++ early → relation.TakesOrigins early

/-- The backward pass finds such an order. -/
theorem finishOrder_isFinishOrder (consistent : relation.Consistent) :
    relation.IsFinishOrder (finishOrder relation) := by
  have final := Descends.upto consistent le_rfl
  refine ⟨final.nodup, fun node => ⟨fun member => (final.entered node member).1, fun inside => ?_⟩,
    final.nested⟩
  by_contra unfinished
  have entered := (final.begun node inside).resolve_right List.not_mem_nil
  exact absurd (final.mem_stack node ⟨inside.trans_eq final.sized.symm, entered,
    unfinished⟩) List.not_mem_nil

end JourneyTimes.Components
