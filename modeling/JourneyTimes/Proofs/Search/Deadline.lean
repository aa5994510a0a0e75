import JourneyTimes.Proofs.Search.Shortcut
import JourneyTimes.Proofs.Search.Targets

/-!
# Searches up to a travel time

Where links cost the time that they take, nodes come out of the frontier in the order of
their arrivals.  A search up to a travel time therefore takes the same steps as one without
bounds, until the first node comes out too late.  All that wait then are as late: they are
pruned one after the other, and nothing more is settled.  The search without bounds goes on,
and whatever it still settles is as late.

So the bound cuts the record of settled nodes off, and what is settled before keeps its
label.  It makes no difference whether who enters a link later arrives later.  A node that
is reached exactly at the bound is too late.
-/

namespace JourneyTimes

/-- A label is what it says about the way to its node, and its marks. -/
theorem Label.eq_of_marks {α : Type} {left right : Label α}
    (arrival : left.arrival = right.arrival) (via : left.via = right.via)
    (settled : left.settled = right.settled) (pruned : left.pruned = right.pruned) :
    left = right := by
  cases left
  cases right
  cases arrival
  simp_all

variable {K : Type} [Field K] [LinearOrder K] [FloorRing K] [Trigonometry K]

/-- A limit that is not at most a number is greater than it, unless it is undefined. -/
theorem Exact.not_le_finite_iff {limit : Exact K} (comparable : limit ≠ .undefined)
    {value : K} : ¬ limit ≤ value ↔ (value : Exact K) < limit := by
  cases limit with
  | undefined => exact absurd rfl comparable
  | negativeInfinity => simp [Exact.le_iff, Exact.lt_iff, Exact.isAtMost, Exact.isLess]
  | infinity => simp [Exact.le_iff, Exact.lt_iff, Exact.isAtMost, Exact.isLess]
  | finite bound => simp

variable [IsStrictOrderedRing K]

namespace Search

variable {query : Query (Exact K)} {limit : Exact K} {start : K}

/-- A search with bounds has come to a state `part`.  It took the same steps as the one without
them up to the state `fork`, where the first node came out too late, and has only pruned nodes
since then. -/
structure Lags (query : Query (Exact K)) (fork part : State (Exact K)) : Prop where
  same : SameWays fork part
  settled_eq : ∀ node, (part.labels.get node).settled = (fork.labels.get node).settled
  record_eq : part.settled = fork.settled
  late : part = fork ∨
    ∃ node rest, fork.frontier.pop? = some (node, rest) ∧ isBeyond query node fork = true

omit [IsStrictOrderedRing K] in
protected theorem Lags.refl (query : Query (Exact K)) (state : State (Exact K)) :
    Lags query state state where
  same _ := ⟨rfl, rfl⟩
  settled_eq _ := rfl
  record_eq := rfl
  late := .inl rfl

section Bound

variable (plain : query.IsPlain) (costsTime : query.cost.CostsTime query.graph)
  (starts : query.start = start) (bounded : query.bounds = .maxTravelTime limit)

include costsTime starts bounded

/-- A node that has been found is too late exactly if its label costs the limit. -/
theorem Relaxed.isBeyond_iff {state : State (Exact K)} (relaxed : Relaxed query state)
    {node : Nat} (found : IsFound query state node) :
    isBeyond query node state = true ↔ limit ≤ (state.labels.get node).cost := by
  rcases relaxed.label_costs_time costsTime starts found with ⟨duration, -, costEq, timeEq⟩
  rw [isBeyond, bounded, costEq, timeEq, starts, Exact.finite_sub_finite, add_sub_cancel_left]
  exact decide_eq_true_iff

/-- A node that has been found is in time exactly if the bounds do not exclude it. -/
theorem Relaxed.isInTime_iff (comparable : limit ≠ .undefined) {state : State (Exact K)}
    (relaxed : Relaxed query state) {node : Nat} (found : IsFound query state node) :
    (state.labels.get node).time - query.start < limit ↔ isBeyond query node state = false := by
  rcases relaxed.label_costs_time costsTime starts found with ⟨duration, -, costEq, timeEq⟩
  rw [← Bool.not_eq_true, relaxed.isBeyond_iff costsTime starts bounded found, costEq, timeEq,
    starts, Exact.finite_sub_finite, add_sub_cancel_left]
  exact (Exact.not_le_finite_iff comparable).symm

include plain

/-- When a node comes out too late, all that wait are too late. -/
theorem Levelled.isBeyond_of_waits {state : State (Exact K)} (levelled : Levelled query state)
    {node : Nat} {rest : Frontier (Exact K)} (popped : state.frontier.pop? = some (node, rest))
    (beyond : isBeyond query node state = true) {other : Nat}
    (waits : IsWaiting query state other) : isBeyond query other state = true := by
  have nodeWaits := (levelled.popped_found plain.wellFormed plain.source_lt popped).1
  rw [levelled.isBeyond_iff costsTime starts bounded nodeWaits.1] at beyond
  rw [levelled.isBeyond_iff costsTime starts bounded waits.1]
  exact Exact.le_trans beyond (levelled.popped_le plain popped waits)

variable {scratch : Scratch (Exact K)} (blank : Blank query.graph.size scratch)
  {fork part : State (Exact K)} (lags : Lags query fork part)
  (reached : Reaches (query.withBounds .unbounded)
    (initial (query.withBounds .unbounded) scratch) fork)

include blank lags reached

/-- What comes out of the frontier of a search that lags behind is too late. -/
theorem Lags.isBeyond_of_popped (partOk : Chronicled query part) (behind : part ≠ fork)
    {node : Nat} {rest : Frontier (Exact K)} (popped : part.frontier.pop? = some (node, rest)) :
    isBeyond query node part = true := by
  have forkOk := chronicled_of_reaches_withBounds plain blank reached
  have unpruned : (fork.labels.get node).pruned = false :=
    unpruned_of_reaches (plain.withBounds .unbounded).wellFormed plain.source_lt
      (fun _ _ => rfl) blank reached node
  have waits := (partOk.popped_found plain.wellFormed plain.source_lt popped).1
  have forkWaits : IsWaiting query fork node :=
    ⟨(lags.same.found_iff node).mp waits.1, (lags.settled_eq node).symm.trans waits.2.1, unpruned⟩
  rcases lags.late.resolve_left behind with ⟨first, firstRest, firstPopped, beyond⟩
  rw [isBeyond_congr query (lags.same node).1]
  exact forkOk.isBeyond_of_waits plain costsTime starts bounded firstPopped beyond forkWaits

/-- A search that lags behind prunes, and one that does not goes along. -/
theorem Lags.step (partOk : Chronicled query part) {next : State (Exact K)}
    (step : Step query part next) :
    ∃ later, Reaches (query.withBounds .unbounded)
      (initial (query.withBounds .unbounded) scratch) later ∧ Lags query later next := by
  cases step with
  | @prune node rest popped beyond =>
      have nodeInside := (partOk.popped_found plain.wellFormed plain.source_lt popped).2
      refine ⟨fork, reached, ?_⟩
      constructor
      case same =>
        intro other
        rcases sameWays_prune partOk.valid nodeInside rest other with ⟨arrival, via⟩
        exact ⟨arrival.trans (lags.same other).1, via.trans (lags.same other).2⟩
      case settled_eq =>
        intro other
        exact (get_prune_settled partOk.valid nodeInside rest other).trans (lags.settled_eq other)
      case record_eq => exact lags.record_eq
      case late =>
        rcases lags.late with rfl | late
        · exact .inr ⟨node, rest, popped, beyond⟩
        · exact .inr late
  | @expand node rest popped within _ =>
      by_cases behind : part = fork
      · subst behind
        have awaitsNothing := awaited_of_reaches rfl reached
        have goesOn : isOver (query.withBounds .unbounded) node
            (close (query.withBounds .unbounded) node rest part) = false := by
          simp [isOver, close, settle, Query.withBounds, awaitsNothing, plain.noGoal]
        exact ⟨expand query node rest part, reached.tail (.expand popped rfl goesOn), .refl ..⟩
      · have beyond := lags.isBeyond_of_popped plain costsTime starts bounded blank reached partOk
          behind popped
        rw [beyond] at within
        cases within

omit reached in
/-- A search that has nothing left to do is as far as the one without bounds, or that one
settles a node that is too late. -/
theorem Lags.record_of_exhausted {whole : State (Exact K)}
    (reached : Reaches (query.withBounds .unbounded)
      (initial (query.withBounds .unbounded) scratch) fork)
    (onwards : Reaches (query.withBounds .unbounded) fork whole)
    (wholeExhausted : whole.frontier.pop? = none) (partExhausted : part.frontier.pop? = none) :
    ∃ tail, whole.settled.toList = part.settled.toList ++ tail ∧
      ∀ node ∈ tail, isBeyond query node whole = true := by
  have wholeOk := chronicled_of_reaches_withBounds plain blank (reached.trans onwards)
  rw [lags.record_eq]
  rcases onwards.cases_head with rfl | ⟨next, step, rest⟩
  · exact ⟨[], (List.append_nil _).symm, by simp⟩
  cases step with
  | prune _ beyond => cases beyond
  | @expand first firstRest popped within goesOn =>
      have rest : Reaches (query.withBounds .unbounded) (expand query first firstRest fork) whole :=
        rest
      rcases lags.late with rfl | ⟨node, otherRest, samePopped, beyond⟩
      · rw [partExhausted] at popped
        cases popped
      cases popped.symm.trans samePopped
      have forkOk := chronicled_of_reaches_withBounds plain blank reached
      have waits := (forkOk.popped_found plain.wellFormed plain.source_lt popped).1
      rcases rest.settled_extends plain.noGoal with ⟨tail, record⟩
      rw [settled_expand plain.noGoal, List.append_assoc] at record
      refine ⟨[first] ++ tail, record.symm, ?_⟩
      -- The node that comes out keeps its label, and the later ones cost no less.
      have kept : (whole.labels.get first).arrival = (fork.labels.get first).arrival := by
        have later : Reaches (query.withBounds .unbounded)
            (initial (query.withBounds .unbounded) scratch)
            (expand query first firstRest fork) := reached.tail (.expand popped within goesOn)
        have laterOk := chronicled_of_reaches_withBounds plain blank later
        have final := (forkOk.isFinal_expand plain popped first).mpr (.inl rfl)
        have whole_eq := rest.final_kept (later.sound plain.wellFormed plain.source_lt blank)
          plain.wellFormed plain.source_lt plain.noGoal final
        rw [whole_eq]
        exact forkOk.expand_frozen plain popped (.inl rfl)
      have firstLate : limit ≤ (whole.labels.get first).cost := by
        rw [Label.cost_congr kept]
        exact (forkOk.isBeyond_iff costsTime starts bounded waits.1).mp beyond
      have sorted := wholeOk.sorted
      rw [← record, List.pairwise_append, List.singleton_append, List.pairwise_cons] at sorted
      intro node member
      have found : IsFound query whole node := by
        apply wholeOk.found_of_settled
        rw [← wholeOk.mem_iff, ← record]
        exact List.mem_append_right _ member
      rw [wholeOk.isBeyond_iff costsTime starts bounded found]
      rcases List.mem_cons.mp member with rfl | last
      · exact firstLate
      · exact Exact.le_trans firstLate (sorted.2.1.1 node last)

end Bound

section Run

variable (plain : query.IsPlain) (costsTime : query.cost.CostsTime query.graph)
  (starts : query.start = start) (bounded : query.bounds = .maxTravelTime limit)
  {scratch others : Scratch (Exact K)} (blank : Blank query.graph.size scratch)
  (othersBlank : Blank query.graph.size others)

include plain costsTime starts bounded blank

/-- Every state of a search up to a travel time lags behind one of the search without
bounds. -/
theorem lags_of_reaches {part : State (Exact K)}
    (reaches : Reaches query (initial query scratch) part) :
    ∃ fork, Reaches (query.withBounds .unbounded)
      (initial (query.withBounds .unbounded) scratch) fork ∧ Lags query fork part := by
  have begins : initial (query.withBounds .unbounded) scratch = initial query scratch := by
    simp [initial, bounded, Query.withBounds, SearchBounds.awaited]
  have both : Chronicled query part ∧ ∃ fork, Reaches (query.withBounds .unbounded)
      (initial (query.withBounds .unbounded) scratch) fork ∧ Lags query fork part := by
    refine reaches.keeps (fun part => Chronicled query part ∧
      ∃ fork, Reaches (query.withBounds .unbounded)
        (initial (query.withBounds .unbounded) scratch) fork ∧ Lags query fork part) ?_
      ⟨.initial plain blank, _, .refl, begins ▸ .refl ..⟩
    rintro part next ⟨partOk, fork, reached, lags⟩ step
    exact ⟨partOk.step plain step,
      lags.step plain costsTime starts bounded blank reached partOk step⟩
  exact both.2

omit [IsStrictOrderedRing K] costsTime starts bounded in
/-- A node that is settled is kept as it is by the search without bounds. -/
theorem Lags.get_eq {fork part whole : State (Exact K)} (lags : Lags query fork part)
    (reached : Reaches (query.withBounds .unbounded)
      (initial (query.withBounds .unbounded) scratch) fork)
    (onwards : Reaches (query.withBounds .unbounded) fork whole) (rooted : Rooted query part)
    {node : Nat} (settled : (part.labels.get node).settled = true) :
    whole.labels.get node = part.labels.get node := by
  have forkSettled := (lags.settled_eq node).symm.trans settled
  have forkUnpruned := unpruned_of_reaches (plain.withBounds .unbounded).wellFormed
    plain.source_lt (fun _ _ => rfl) blank reached node
  have forkSound : Sound (query.withBounds .unbounded) fork :=
    Reaches.sound reached plain.wellFormed plain.source_lt blank
  rw [onwards.final_kept forkSound plain.wellFormed plain.source_lt plain.noGoal
    (isFinal_of_settled plain.noGoal forkSettled)]
  exact (Label.eq_of_marks (lags.same node).1 (lags.same node).2 (lags.settled_eq node)
    ((rooted.unpruned node settled).trans forkUnpruned.symm)).symm

include othersBlank

/-- A search up to a travel time settles what the one without bounds settles in time, in the
same order and with the same labels. -/
theorem run_maxTravelTime {part whole : State (Exact K)} (ran : run query scratch = .ok part)
    (othersRan : run (query.withBounds .unbounded) others = .ok whole) :
    part.settled.toList =
        whole.settled.toList.filter (fun node => !isBeyond query node whole) ∧
      ∀ node ∈ part.settled.toList, whole.labels.get node = part.labels.get node := by
  -- The search without bounds may as well begin where the other one does.
  rcases exists_alike_of_run (query.withBounds .unbounded) othersBlank blank othersRan with
    ⟨whole, wholeRan, alike⟩
  simp only [alike.settled_eq, alike.labels.get_eq, isBeyond]
  have noTargets : query.bounds.awaited = none := by
    rw [bounded]
    rfl
  rcases run_reaches (plain.withBounds .unbounded).noGoal rfl wholeRan with
    ⟨wholeReaches, wholeExhausted⟩
  rcases run_reaches plain.noGoal noTargets ran with ⟨partReaches, partExhausted⟩
  have rooted := run_rooted plain.wellFormed plain.source_lt plain.noGoal blank ran
  rcases lags_of_reaches plain costsTime starts bounded blank partReaches with
    ⟨fork, reached, lags⟩
  have onwards : Reaches (query.withBounds .unbounded) fork whole :=
    wholeReaches.to_exhausted wholeExhausted reached
  have same (node : Nat) (member : node ∈ part.settled.toList) :
      whole.labels.get node = part.labels.get node :=
    lags.get_eq plain blank reached onwards rooted
      ((rooted.mem_iff node).mp member)
  refine ⟨?_, same⟩
  rcases lags.record_of_exhausted plain costsTime starts bounded blank reached onwards
      wholeExhausted partExhausted with
    ⟨tail, record, late⟩
  have inTime (node : Nat) (member : node ∈ part.settled.toList) :
      (!isBeyond query node whole) = true := by
    have within := rooted.within node ((rooted.mem_iff node).mp member)
    rw [isBeyond, same node member]
    exact Bool.not_eq_true' _ ▸ within
  have noneLater : tail.filter (fun node => !isBeyond query node whole) = [] := by
    apply List.filter_eq_nil_iff.mpr
    intro node member
    simp [late node member]
  change _ = whole.settled.toList.filter fun node => !isBeyond query node whole
  rw [record, List.filter_append, List.filter_eq_self.mpr inTime, noneLater, List.append_nil]

end Run

end Search

namespace PathTree

open Search

/-! ## Path trees -/

/-- A path tree that reports what another one reaches in less than a limit, in the same order
and with the same answers, and nothing about other nodes. -/
structure EndsBefore (limit start : Exact K) (part whole : PathTree (Exact K)) : Prop where
  record : part.reached.toList = whole.reached.toList.filter fun node =>
    (whole.time? node).any fun time => time - start < limit
  reached_iff : ∀ node, part.isReached node = true ↔
    ∃ time, whole.time? node = some time ∧ time - start < limit
  agrees : ∀ node, part.isReached node = true → AgreesAt part whole node

variable {graph : Graph (Exact K)} {cost : CostModel (Exact K)}
  {landmarks others : Option (Landmarks (Exact K))} {left right : PathTree (Exact K)}

/-- Where links cost the time that they take, a search up to a travel time reports exactly what
the one without bounds reaches in less time, whether or not links are first in, first out, and
whatever the path trees were asked before. -/
theorem calculate_maxTravelTime (wellFormed : graph.WellFormed)
    (priced : ∀ link ∈ graph.links, cost.prices link = true) (costsTime : cost.CostsTime graph)
    (leftUsed : Used graph cost landmarks left) (rightUsed : Used graph cost others right)
    {source : Nat} (inside : source < graph.size) (start : K) {limit : Exact K}
    (comparable : limit ≠ .undefined) :
    ∃ part whole, left.calculate source start (.maxTravelTime limit) = .ok part ∧
      right.calculate source start .unbounded = .ok whole ∧
      EndsBefore limit start part whole := by
  rcases leftUsed.calculate_ok wellFormed priced inside (start : Exact K) (.maxTravelTime limit)
    nofun with ⟨_, final, part, blank, ran, partDone, answers⟩
  rcases rightUsed.calculate_ok wellFormed priced inside (start : Exact K) .unbounded nofun with
    ⟨_, final', whole, blank', ran', wholeDone, answers'⟩
  refine ⟨part, whole, partDone, wholeDone, ?_⟩
  let query := queryOn graph cost landmarks source (start : Exact K) (.maxTravelTime limit) none
  have plain : query.IsPlain :=
    isPlain_queryOn wellFormed costsTime.isNonnegative inside start (.maxTravelTime limit)
  have rooted : Rooted query final := run_rooted wellFormed inside rfl blank ran
  have rooted' : Rooted (query.withBounds .unbounded) final' :=
    run_rooted wellFormed inside rfl blank' ran'
  have wholeOk : Chronicled query final' := run_chronicled plain blank' rfl ran'
  rcases run_maxTravelTime plain costsTime rfl rfl blank blank' ran ran' with ⟨record, same⟩
  have mem_whole (node : Nat) : whole.isReached node = true ↔ node ∈ whole.reached.toList :=
    answers'.isReached_iff_mem wellFormed inside rooted'
  have timeEq (node : Nat) (member : node ∈ whole.reached.toList) :
      ∃ time, whole.time? node = some time ∧ (time - (start : Exact K) < limit ↔
        isBeyond query node final' = false) := by
    have settled := (rooted'.mem_iff node).mp (answers'.reached_eq ▸ member)
    exact ⟨_, (answers'.reports wellFormed inside rooted' settled).1,
      wholeOk.isInTime_iff costsTime rfl rfl comparable (wholeOk.found_of_settled settled)⟩
  have partRecord : part.reached.toList = whole.reached.toList.filter fun node =>
      (whole.time? node).any fun time => time - (start : Exact K) < limit := by
    rw [answers.reached_eq, answers'.reached_eq]
    refine record.trans (List.filter_congr fun node member => ?_)
    rcases timeEq node (answers'.reached_eq ▸ member) with ⟨time, reported, inTime⟩
    rw [reported, Option.any_some, ← Bool.coe_iff_coe, decide_eq_true_iff, inTime,
      Bool.not_eq_true']
  constructor
  case record => exact partRecord
  case reached_iff =>
    intro node
    rw [answers.isReached_iff_mem wellFormed inside rooted, partRecord, List.mem_filter,
      Option.any_eq_true]
    constructor
    · rintro ⟨-, time, reported, inTime⟩
      exact ⟨time, reported, of_decide_eq_true inTime⟩
    · rintro ⟨time, reported, inTime⟩
      exact ⟨(mem_whole node).mp (isReached_of_time? reported), time, reported,
        decide_eq_true inTime⟩
  case agrees =>
    intro node isReached
    have member := (answers.isReached_iff_mem wellFormed inside rooted).mp isReached
    exact answers.agreesAt answers' wellFormed inside rooted rooted' same
      (answers.reached_eq ▸ member)

end PathTree

/-- The second link of `Graph.triangle` is jammed until half past eight, and takes no time at
all after that: who enters it later may arrive earlier. -/
def CostModel.jammed : CostModel (Exact ℚ) where
  travelTime link time :=
    if link.index = 1 then if time < ↑(30600 : ℚ) then ↑(3600 : ℚ) else 0
    else if link.index = 2 then ↑(20 : ℚ) else ↑(10 : ℚ)
  disutility link time :=
    if link.index = 1 then if time < ↑(30600 : ℚ) then ↑(3600 : ℚ) else 0
    else if link.index = 2 then ↑(20 : ℚ) else ↑(10 : ℚ)
  minimum link := if link.index = 1 then 0 else ↑(10 : ℚ)

theorem CostModel.jammed_costsTime (graph : Graph (Exact ℚ)) :
    CostModel.jammed.CostsTime graph where
  disutility_eq _ _ _ := rfl
  nonneg link _ time := by
    rw [jammed]
    dsimp only
    split_ifs <;> exact Exact.finite_nonneg.mpr (by norm_num)

/-- The last node of the triangle is reached exactly at the limit, and so it is not reported. -/
theorem PathTree.calculate_maxTravelTime_triangle :
    ¬ CostModel.jammed.IsFirstInFirstOut Graph.triangle ∧
    let fresh : PathTree (Exact ℚ) := make Graph.triangle .jammed
    ∃ part whole, fresh.calculate 0 (28800 : ℚ) (.maxTravelTime (20 : ℚ)) = .ok part ∧
      fresh.calculate 0 (28800 : ℚ) .unbounded = .ok whole ∧
      EndsBefore (20 : ℚ) (28800 : ℚ) part whole ∧
      part.reached.toList = [0, 1] ∧ whole.reached.toList = [0, 1, 2] ∧
      whole.time? 2 = some (28820 : ℚ) ∧ part.isReached 2 = false := by
  constructor
  · intro fifo
    have second : (Graph.triangle : Graph (Exact ℚ)).links[1]? = some _ := rfl
    have order := fifo _ (Array.mem_of_getElem? second) 30000 30600 (by norm_num)
    revert order
    decide +kernel
  · intro fresh
    have partFound : (fresh.calculateWithin 4 0 (28800 : ℚ) (.maxTravelTime (20 : ℚ))).map
        (·.reached.toList) = some [0, 1] := by
      decide +kernel
    have wholeFound : (fresh.calculateWithin 4 0 (28800 : ℚ) .unbounded).map
        (fun tree => (tree.reached.toList, tree.time? 2)) =
          some ([0, 1, 2], some ((28820 : ℚ) : Exact ℚ)) := by
      decide +kernel
    have used : Used Graph.triangle .jammed none fresh := .make
    rcases calculate_maxTravelTime Graph.triangle_wellFormed (fun _ _ => rfl)
        (CostModel.jammed_costsTime _) used used (by decide : 0 < 3) 28800
        (show ((20 : ℚ) : Exact ℚ) ≠ .undefined by simp) with
      ⟨part, whole, partDone, wholeDone, ends⟩
    have partRecord : part.reached.toList = [0, 1] := eq_of_calculateWithin partFound partDone
    have reported := eq_of_calculateWithin wholeFound wholeDone
    rcases Prod.mk.inj reported with ⟨wholeRecord, timeEq⟩
    refine ⟨part, whole, partDone, wholeDone, ends, partRecord, wholeRecord, timeEq, ?_⟩
    rw [← Bool.not_eq_true, ends.reached_iff, timeEq]
    rintro ⟨time, same, inTime⟩
    obtain rfl := Option.some.inj same
    rw [Exact.finite_sub_finite, Exact.finite_lt_finite] at inTime
    norm_num at inTime

end JourneyTimes
