import JourneyTimes.Proofs.Search.Fresh
import JourneyTimes.Proofs.Search.ReportedPath
import JourneyTimes.Proofs.Search.Shadow

/-!
# Searches that stop at targets

A search that stops at targets takes the same steps as one without bounds, up to the
step that settles the last target.  It goes through the states of the other search,
apart from the targets that it still waits for.  What it has settled by then is final,
so stopping changes nothing about it: the search without bounds only settles more.

This needs nothing of the costs, and nothing of the targets.  They may be repeated, or
out of reach, and there may be none: then the source is the one node that is settled.
-/

namespace JourneyTimes

variable {α : Type} [Scalar α]

namespace Search

variable {query : Query α}

/-! ## Steps without regard to targets -/

/-- The state of a search that does not wait for targets. -/
def State.carefree (state : State α) : State α := { state with awaited := none }

theorem carefree_relax (here : Label α) (state : State α) (link : Graph.Link α) :
    relax (query.withBounds .unbounded) here state.carefree link =
      (relax query here state link).carefree := by
  have known : state.carefree.labels = state.labels := rfl
  simp only [relax, known, apply_ite State.carefree]
  rfl

theorem carefree_expand (node : Nat) (rest : Frontier α) (state : State α) :
    expand (query.withBounds .unbounded) node rest state.carefree =
      (expand query node rest state).carefree := by
  have fold (here : Label α) (links : List (Graph.Link α)) (state : State α) :
      links.foldl (relax (query.withBounds .unbounded) here) state.carefree =
        (links.foldl (relax query here) state).carefree := by
    induction links generalizing state with
    | nil => rfl
    | cons link links ih => rw [List.foldl_cons, List.foldl_cons, carefree_relax, ih]
  exact fold _ _ (close query node rest state)

/-- A search without a goal settles a node and goes on if it does not wait for targets. -/
theorem carefree_goesOn (noGoal : query.goal = none) {state : State α} {node : Nat}
    {rest : Frontier α} (popped : state.frontier.pop? = some (node, rest)) :
    Step (query.withBounds .unbounded) state.carefree (expand query node rest state).carefree := by
  rw [← carefree_expand]
  refine .expand popped rfl ?_
  simp [isOver, close, settle, State.carefree, Query.withBounds, noGoal]

/-- A search that prunes nothing steps like one without bounds. -/
theorem Step.carefree (keepsAll : query.KeepsAll) (noGoal : query.goal = none)
    {state next : State α} (step : Step query state next) :
    Step (query.withBounds .unbounded) state.carefree next.carefree := by
  cases step with
  | prune _ beyond =>
      rw [isBeyond, keepsAll] at beyond
      cases beyond
  | expand popped _ _ => exact carefree_goesOn noGoal popped

/-- A search has one way to go on. -/
theorem step_rightUnique : Relator.RightUnique (Step query) := by
  intro state next other step step'
  cases step with
  | prune popped beyond =>
      cases step' with
      | prune popped' _ =>
          cases popped.symm.trans popped'
          rfl
      | expand popped' within _ =>
          cases popped.symm.trans popped'
          rw [beyond] at within
          cases within
  | expand popped within _ =>
      cases step' with
      | prune popped' beyond =>
          cases popped.symm.trans popped'
          rw [beyond] at within
          cases within
      | expand popped' _ _ =>
          cases popped.symm.trans popped'
          rfl

/-- From every state that it comes to, a search goes on to the one where nothing is left
to do. -/
theorem Reaches.to_exhausted {state middle last : State α} (reaches : Reaches query state last)
    (exhausted : last.frontier.pop? = none) (comesBy : Reaches query state middle) :
    Reaches query middle last := by
  rcases Relation.ReflTransGen.total_of_right_unique step_rightUnique comesBy reaches with
    onwards | back
  · exact onwards
  · rcases back.cases_head with rfl | ⟨next, step, -⟩
    · exact .refl
    · cases step <;> simp_all

/-! ## What stays on record -/

/-- A search without a goal only adds to its record. -/
theorem Reaches.settled_extends {state last : State α} (reaches : Reaches query state last)
    (noGoal : query.goal = none) : state.settled.toList <+: last.settled.toList := by
  induction reaches with
  | refl => exact List.prefix_rfl
  | tail _ step ih =>
      cases step with
      | prune _ _ => exact ih
      | expand _ _ _ =>
          rw [settled_expand noGoal]
          exact ih.trans (List.prefix_append ..)

/-- What holds of every state holds of those that a search comes to. -/
theorem Reaches.sound {scratch : Scratch α} {state : State α}
    (reaches : Reaches query (initial query scratch) state) (wellFormed : query.graph.WellFormed)
    (inside : query.source < query.graph.size) (blank : Blank query.graph.size scratch) :
    Sound query state :=
  reaches.keeps (Sound query) (fun sound step => sound.step wellFormed inside step)
    (sound_initial blank inside)

/-- A search without a goal keeps final labels. -/
theorem Reaches.final_kept {state last : State α} (reaches : Reaches query state last)
    (sound : Sound query state) (wellFormed : query.graph.WellFormed)
    (inside : query.source < query.graph.size) (noGoal : query.goal = none) {node : Nat}
    (final : query.isFinal (state.labels.get node) = true) :
    last.labels.get node = state.labels.get node := by
  have both : Sound query last ∧ last.labels.get node = state.labels.get node := by
    refine reaches.keeps (fun later =>
      Sound query later ∧ later.labels.get node = state.labels.get node) ?_ ⟨sound, rfl⟩
    rintro later next ⟨laterSound, same⟩ step
    rcases laterSound.step_final wellFormed inside noGoal step with ⟨-, -, -, -, keeps⟩
    exact ⟨laterSound.step wellFormed inside step, by rw [keeps node (same ▸ final), same]⟩
  exact both.2

/-! ## Waiting for targets -/

/-- A search waits for the targets that it has not settled, and it goes on only with some
left, unless it has settled nothing. -/
structure Awaits (targets : List Nat) (state : State α) : Prop where
  awaited_eq : state.awaited = some (targets.filter fun node => node ∉ state.settled.toList)
  goesOn : state.settled.toList = [] ∨ state.awaited ≠ some []

namespace Awaits

variable {targets : List Nat} {state : State α}

protected theorem initial (stops : query.bounds = .targets targets) {size : Nat}
    {scratch : Scratch α} (blank : Blank size scratch) :
    Awaits targets (Search.initial query scratch) where
  awaited_eq := by
    simp [Search.initial, SearchBounds.awaited, stops, blank.settled_eq]
  goesOn := .inl (congrArg Array.toList blank.settled_eq)

omit [Scalar α] in
/-- Settling a node takes it off the targets that are waited for. -/
theorem close_awaited (awaits : Awaits targets state) (node : Nat) (rest : Frontier α) :
    (close query node rest state).awaited =
      some (targets.filter fun target => target ∉ state.settled.toList ++ [node]) := by
  simp only [close, settle, awaits.awaited_eq, Option.map_some, List.filter_filter]
  congr 2
  funext target
  simp [bne, BEq.beq, Bool.and_comm]

protected theorem step (awaits : Awaits targets state) (noGoal : query.goal = none)
    {next : State α} (step : Step query state next) : Awaits targets next := by
  cases step with
  | prune _ _ => exact ⟨awaits.awaited_eq, awaits.goesOn⟩
  | @expand node rest _ _ goesOn =>
      have awaited : (expand query node rest state).awaited =
          (close query node rest state).awaited := (foldl_relax_settled query _ _ _).2
      constructor
      case awaited_eq =>
        rw [awaited, awaits.close_awaited, settled_expand noGoal]
      case goesOn =>
        refine .inr fun nothing => ?_
        rw [awaited] at nothing
        simp [isOver, nothing] at goesOn

omit [Scalar α] in
/-- While a search goes on and has settled something, some target is missing. -/
theorem nil_of_all (awaits : Awaits targets state)
    (all : ∀ target ∈ targets, target ∈ state.settled.toList) : state.settled.toList = [] := by
  rcases awaits.goesOn with nothing | waits
  · exact nothing
  · refine absurd ?_ waits
    rw [awaits.awaited_eq, List.filter_eq_nil_iff.mpr]
    intro target member
    simpa using all target member

end Awaits

/-! ## Stopped searches -/

/-- How far a record of nodes goes that is broken off at targets: to the first node after
which none is missing, or to the end. -/
structure BrokenOff (targets part whole : List Nat) : Prop where
  begins : part <+: whole
  /-- If all targets are on the whole record, this is the shortest part with all of them
  that is not empty. -/
  shortest : (∀ target ∈ targets, target ∈ whole) →
    part ≠ [] ∧ (∀ target ∈ targets, target ∈ part) ∧
      ∀ other, other <+: whole → other ≠ [] → (∀ target ∈ targets, target ∈ other) →
        part <+: other
  exhausts : (¬ ∀ target ∈ targets, target ∈ whole) → part = whole

namespace BrokenOff

variable {targets part whole : List Nat}

/-- Whatever targets are on the whole record, the part has. -/
theorem mem (broken : BrokenOff targets part whole) {target : Nat} (isTarget : target ∈ targets)
    (onWhole : target ∈ whole) : target ∈ part := by
  by_cases all : ∀ target ∈ targets, target ∈ whole
  · exact (broken.shortest all).2.1 target isTarget
  · rw [broken.exhausts all]
    exact onWhole

/-- A record on which a target is missing is not broken off. -/
theorem of_missing (missing : ¬ ∀ target ∈ targets, target ∈ whole) :
    BrokenOff targets whole whole where
  begins := List.prefix_rfl
  shortest all := absurd all missing
  exhausts _ := rfl

/-- A record is broken off after a node if that is the last target that was missing, or if
it is the first node and there are no targets. -/
theorem of_last {before : List Nat} {node : Nat} (begins : before ++ [node] <+: whole)
    (all : ∀ target ∈ targets, target ∈ before ++ [node])
    (missing : (∀ target ∈ targets, target ∈ before) → before = []) :
    BrokenOff targets (before ++ [node]) whole where
  begins := begins
  shortest _ := by
    refine ⟨by simp, all, ?_⟩
    intro other otherBegins nonempty otherAll
    rcases List.prefix_or_prefix_of_prefix begins otherBegins with longer | shorter
    · exact longer
    · rcases List.prefix_concat_iff.mp shorter with same | earlier
      · exact same ▸ List.prefix_rfl
      · have none := missing fun target member => earlier.subset (otherAll target member)
        rw [none] at earlier
        exact absurd (List.prefix_nil.mp earlier) nonempty
  exhausts short := absurd (fun target member => begins.subset (all target member)) short

end BrokenOff

section Run

variable (wellFormed : query.graph.WellFormed) (inside : query.source < query.graph.size)
  (noGoal : query.goal = none) {targets : List Nat} (stops : query.bounds = .targets targets)
  {scratch : Scratch α} (blank : Blank query.graph.size scratch)

section

variable {last whole : State α} (reaches : Reaches query (initial query scratch) last)
  (wholeReaches : Reaches (query.withBounds .unbounded)
    (initial (query.withBounds .unbounded) scratch) whole)
  (exhausted : whole.frontier.pop? = none)

include noGoal stops reaches

include blank in
theorem awaits_of_reaches : Awaits targets last :=
  reaches.keeps (Awaits targets) (fun awaits step => awaits.step noGoal step)
    (.initial stops blank)

/-- The search without bounds comes by all states of one that stops at targets. -/
theorem reaches_carefree : Reaches (query.withBounds .unbounded)
    (initial (query.withBounds .unbounded) scratch) last.carefree :=
  have keepsAll : query.KeepsAll := fun elapsed distance => by rw [stops]; rfl
  reaches.lift State.carefree fun _ _ step => step.carefree keepsAll noGoal

include wholeReaches exhausted in
/-- With nothing left to do, both searches are at their end. -/
theorem carefree_eq_of_exhausted (popped : last.frontier.pop? = none) : last.carefree = whole := by
  have comesBy := reaches_carefree noGoal stops reaches
  rcases (wholeReaches.to_exhausted exhausted comesBy).cases_head with same | ⟨_, step, -⟩
  · exact same
  · cases step <;> simp_all [State.carefree]

include wellFormed inside blank in
/-- A search that ends with nothing left to do is missing a target, since it has settled its
source and would have stopped. -/
theorem missing_of_exhausted (rooted : Rooted query last) (popped : last.frontier.pop? = none) :
    ¬ ∀ target ∈ targets, target ∈ last.settled.toList := by
  intro all
  have keepsAll : query.KeepsAll := fun elapsed distance => by rw [stops]; rfl
  have sourceSettled := rooted.settled_of_found popped
    (unpruned_of_reaches wellFormed inside keepsAll blank reaches) (.inl rfl)
  have onRecord := (rooted.mem_iff query.source).mpr sourceSettled
  rw [(awaits_of_reaches noGoal stops blank reaches).nil_of_all all] at onRecord
  cases onRecord

variable {node : Nat} {rest : Frontier α} (popped : last.frontier.pop? = some (node, rest))

include wholeReaches exhausted popped

/-- The search without bounds goes on where one that stops at targets has stopped. -/
theorem goes_on_of_arrived : Reaches (query.withBounds .unbounded)
      (initial (query.withBounds .unbounded) scratch) (expand query node rest last).carefree ∧
    Reaches (query.withBounds .unbounded) (expand query node rest last).carefree whole := by
  have settles := (reaches_carefree noGoal stops reaches).tail (carefree_goesOn noGoal popped)
  exact ⟨settles, wholeReaches.to_exhausted exhausted settles⟩

include blank in
/-- A search stops at the last target that was missing. -/
theorem brokenOff_of_arrived (ended : isOver query node (close query node rest last) = true) :
    BrokenOff targets (close query node rest last).settled.toList whole.settled.toList := by
  have record : (close query node rest last).settled.toList =
      last.settled.toList ++ [node] := by
    simp [close, settle, noGoal]
  have onwards := (goes_on_of_arrived noGoal stops reaches wholeReaches exhausted popped).2
  have awaits := awaits_of_reaches noGoal stops blank reaches
  rw [record]
  refine .of_last ?_ ?_ awaits.nil_of_all
  · rw [← settled_expand noGoal node rest]
    exact onwards.settled_extends noGoal
  · have none : (close query node rest last).awaited = some [] := by
      simpa [isOver, noGoal] using ended
    rw [awaits.close_awaited, Option.some.injEq, List.filter_eq_nil_iff] at none
    intro target member
    simpa [or_iff_not_imp_left] using none target member

include wellFormed inside blank

/-- What was settled when a search stopped keeps its labels when the other one goes on. -/
theorem get_eq_of_arrived {other : Nat}
    (settled : ((close query node rest last).labels.get other).settled = true) :
    whole.labels.get other = (close query node rest last).labels.get other := by
  have final := isFinal_of_settled noGoal settled
  have lastSound := reaches.sound wellFormed inside blank
  have nodeInside := (lastSound.popped_found wellFormed inside popped).2
  have kept : (expand query node rest last).labels.get other =
      (close query node rest last).labels.get other := by
    rw [get_expand wellFormed lastSound.valid nodeInside, if_pos final]
  rcases goes_on_of_arrived noGoal stops reaches wholeReaches exhausted popped with
    ⟨settles, onwards⟩
  have sound := settles.sound wellFormed inside blank
  rw [← kept] at final ⊢
  exact onwards.final_kept sound wellFormed inside noGoal final

end

variable {others : Scratch α} (othersBlank : Blank query.graph.size others)

include wellFormed inside noGoal stops blank othersBlank

/-- A search that stops at targets comes by a state of the search without bounds, in which
all that it has settled is settled alike. -/
theorem run_targets {part whole : State α} (ran : run query scratch = .ok part)
    (othersRan : run (query.withBounds .unbounded) others = .ok whole) :
    BrokenOff targets part.settled.toList whole.settled.toList ∧
      ∀ node ∈ part.settled.toList, whole.labels.get node = part.labels.get node := by
  -- The search without bounds may as well begin where the other one does.
  rcases exists_alike_of_run (query.withBounds .unbounded) othersBlank blank othersRan with
    ⟨whole, wholeRan, alike⟩
  rw [alike.settled_eq]
  simp only [alike.labels.get_eq]
  rcases ends_of_run ran with ⟨last, reaches, ends⟩
  have rooted := run_rooted wellFormed inside noGoal blank ran
  have wholeNoGoal : (query.withBounds .unbounded).goal = none := noGoal
  rcases run_reaches wholeNoGoal rfl wholeRan with ⟨wholeReaches, exhausted⟩
  cases ends with
  | exhausted popped =>
      obtain rfl :=
        carefree_eq_of_exhausted noGoal stops reaches wholeReaches exhausted popped
      exact ⟨.of_missing
          (missing_of_exhausted wellFormed inside noGoal stops blank reaches rooted popped),
        fun _ _ => rfl⟩
  | @arrived node rest popped within ended =>
      exact ⟨brokenOff_of_arrived noGoal stops blank reaches wholeReaches exhausted popped ended,
        fun other member => get_eq_of_arrived wellFormed inside noGoal stops blank reaches
          wholeReaches exhausted popped ((rooted.mem_iff other).mp member)⟩

end Run

end Search

namespace PathTree

/-! ## Path trees -/

/-- Path trees that answer the same about a node. -/
structure AgreesAt (left right : PathTree α) (node : Nat) : Prop where
  time_eq : left.time? node = right.time? node
  cost_eq : left.cost? node = right.cost? node
  distance_eq : left.distance? node = right.distance? node
  path_eq : left.path? node = right.path? node

/-- A path tree that reports part of what another one does: the nodes up to the last
target in the order in which they were settled, and nothing about others. -/
structure StopsAt (targets : List Nat) (part whole : PathTree α) : Prop where
  record : Search.BrokenOff targets part.reached.toList whole.reached.toList
  reports : ∀ node ∈ part.reached.toList, part.isReached node = true ∧ AgreesAt part whole node
  silent : ∀ node, node ∉ part.reached.toList →
    part.time? node = none ∧ part.cost? node = none ∧ part.distance? node = none ∧
      part.path? node = none
  targets_mem : ∀ target ∈ targets, target ∈ whole.reached.toList →
    target ∈ part.reached.toList

variable {query : Search.Query α} {final last : Search.State α} {part whole : PathTree α}

/-- A path tree reports the nodes on its record. -/
theorem Answers.isReached_iff_mem (answers : Answers query final part)
    (wellFormed : query.graph.WellFormed) (inside : query.source < query.graph.size)
    (rooted : Search.Rooted query final) {node : Nat} :
    part.isReached node = true ↔ node ∈ part.reached.toList := by
  rw [answers.reached_eq, rooted.mem_iff]
  refine answers.isReached_iff_of_settled fun settled => ⟨?_, rooted.unpruned node settled⟩
  exact Search.lt_of_waits rooted.toSound wellFormed inside (rooted.found_of_settled settled)

/-- Last links lead back along the same way where labels are the same. -/
theorem Answers.trace_congr (answers : Answers query final part)
    (others : Answers (query.withBounds .unbounded) last whole)
    (wellFormed : query.graph.WellFormed) (rooted : Search.Rooted query final)
    (same : ∀ node ∈ final.settled.toList, last.labels.get node = final.labels.get node)
    {node : Nat} (member : node ∈ final.settled.toList) : part.trace node = whole.trace node := by
  rcases rooted.exists_simple ((rooted.mem_iff node).mp member) with
    ⟨links, traced, -, allSettled⟩
  have sameVia (visited : Nat) (passed : visited ∈ query.source :: links.map (·.destination)) :
      (last.labels.get visited).via = (final.labels.get visited).via := by
    rw [same visited ((rooted.mem_iff visited).mpr (allSettled visited passed))]
  have originVia : (last.labels.get query.source).via = none :=
    (sameVia query.source (List.mem_cons_self ..)).trans rooted.origin_via
  have others : Answers query last whole := ⟨others.graph_eq, others.scratch_eq, others.start_eq⟩
  rw [answers.trace_eq wellFormed rooted.origin_via traced,
    others.trace_eq_of_linked wellFormed originVia (traced.linked.congr sameVia)]

/-- Path trees agree about a node that both have settled alike. -/
theorem Answers.agreesAt (answers : Answers query final part)
    (others : Answers (query.withBounds .unbounded) last whole)
    (wellFormed : query.graph.WellFormed) (inside : query.source < query.graph.size)
    (rooted : Search.Rooted query final)
    (othersRooted : Search.Rooted (query.withBounds .unbounded) last)
    (same : ∀ node ∈ final.settled.toList, last.labels.get node = final.labels.get node)
    {node : Nat} (member : node ∈ final.settled.toList) : AgreesAt part whole node := by
  have settled := (rooted.mem_iff node).mp member
  rcases answers.reports wellFormed inside rooted settled with ⟨timeEq, costEq, distanceEq⟩
  rcases others.reports wellFormed inside othersRooted (by rw [same node member]; exact settled)
    with ⟨otherTimeEq, otherCostEq, otherDistanceEq⟩
  rw [same node member] at otherTimeEq otherCostEq otherDistanceEq
  have timeSame := timeEq.trans otherTimeEq.symm
  refine ⟨timeSame, costEq.trans otherCostEq.symm, distanceEq.trans otherDistanceEq.symm, ?_⟩
  have sameStart : whole.startTime = query.start := others.start_eq
  rw [path?, path?, timeSame, answers.start_eq, sameStart,
    answers.trace_congr others wellFormed rooted same member, answers.label_eq,
    others.label_eq, same node member]

variable {graph : Graph α} {cost : CostModel α} {landmarks others : Option (Landmarks α)}
  {left right : PathTree α}

/-- Stopping at targets changes nothing but the extent of a search, for any costs and
whatever the path trees were asked before. -/
theorem calculate_targets (wellFormed : graph.WellFormed)
    (priced : ∀ link ∈ graph.links, cost.prices link = true)
    (leftUsed : Used graph cost landmarks left) (rightUsed : Used graph cost others right)
    {source : Nat} (inside : source < graph.size) (start : α) {targets : List Nat}
    (known : ∀ target ∈ targets, target < graph.size) :
    ∃ part whole, left.calculate source start (.targets targets) = .ok part ∧
      right.calculate source start .unbounded = .ok whole ∧ StopsAt targets part whole := by
  have accepted : ∀ nodes ∈ (SearchBounds.targets targets : SearchBounds α).awaited,
      ∀ node ∈ nodes, node < graph.size := by
    rintro nodes ⟨⟩
    exact known
  rcases leftUsed.calculate_ok wellFormed priced inside start (.targets targets) accepted with
    ⟨_, final, part, blank, ran, partDone, answers⟩
  rcases rightUsed.calculate_ok wellFormed priced inside start .unbounded nofun with
    ⟨_, last, whole, blank', ran', wholeDone, answers'⟩
  refine ⟨part, whole, partDone, wholeDone, ?_⟩
  let query := queryOn graph cost landmarks source start (.targets targets) none
  have rooted : Search.Rooted query final :=
    Search.run_rooted wellFormed inside rfl blank ran
  have rooted' : Search.Rooted (query.withBounds .unbounded) last :=
    Search.run_rooted wellFormed inside rfl blank' ran'
  rcases Search.run_targets wellFormed inside (rfl : query.goal = none) rfl blank blank' ran ran'
    with ⟨record, same⟩
  have partReached := congrArg Array.toList answers.reached_eq
  have wholeReached := congrArg Array.toList answers'.reached_eq
  constructor
  case record =>
    rw [partReached, wholeReached]
    exact record
  case reports =>
    intro node member
    have settled := partReached ▸ member
    exact ⟨(answers.isReached_iff_mem wellFormed inside rooted).mpr member,
      answers.agreesAt answers' wellFormed inside rooted rooted' same settled⟩
  case silent =>
    intro node outside
    have unreached := (answers.isReached_iff_mem wellFormed inside rooted).not.mpr outside
    have untimed : part.time? node = none := if_neg unreached
    exact ⟨untimed, if_neg unreached, if_neg unreached, by rw [path?, untimed]; rfl⟩
  case targets_mem =>
    intro target isTarget member
    rw [wholeReached] at member
    rw [partReached]
    exact record.mem isTarget member

/-- On its way to the second node of the triangle a search learns of the last one, and says
nothing about it. -/
theorem calculate_targets_triangle :
    let fresh : PathTree (Exact ℚ) := make Graph.triangle .freeSpeed
    ∃ part whole, fresh.calculate 0 (0 : ℚ) (.targets [1, 1]) = .ok part ∧
      fresh.calculate 0 (0 : ℚ) .unbounded = .ok whole ∧
      StopsAt [1, 1] part whole ∧
      part.reached.toList = [0, 1] ∧ whole.reached.toList = [0, 1, 2] ∧
      part.time? 1 = some (10 : ℚ) ∧ part.time? 2 = none := by
  intro fresh
  have partFound : (fresh.calculateWithin 4 0 (0 : ℚ) (.targets [1, 1])).map
      (fun tree => (tree.reached.toList, tree.time? 1)) =
        some ([0, 1], some ((10 : ℚ) : Exact ℚ)) := by
    decide +kernel
  have wholeFound : (fresh.calculateWithin 4 0 (0 : ℚ) .unbounded).map (·.reached.toList) =
      some [0, 1, 2] := by
    decide +kernel
  have used : Used Graph.triangle .freeSpeed none fresh := .make
  have known : ∀ target ∈ [1, 1], target < 3 := by decide
  rcases calculate_targets Graph.triangle_wellFormed (fun _ _ => rfl) used used
      (by decide : 0 < 3) (0 : ℚ) known with
    ⟨part, whole, partDone, wholeDone, stops⟩
  have reported := eq_of_calculateWithin partFound partDone
  have record : part.reached.toList = [0, 1] := congrArg Prod.fst reported
  have timed : part.time? 1 = some (10 : ℚ) := congrArg Prod.snd reported
  refine ⟨part, whole, partDone, wholeDone, stops, record,
    eq_of_calculateWithin wholeFound wholeDone, timed, (stops.silent 2 ?_).1⟩
  rw [record]
  decide

end PathTree

end JourneyTimes
