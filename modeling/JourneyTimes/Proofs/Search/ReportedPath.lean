import JourneyTimes.Proofs.Search.Answer
import JourneyTimes.Proofs.Search.Cut
import JourneyTimes.Proofs.Search.Linked
import JourneyTimes.Proofs.Search.Rooted
import JourneyTimes.Proofs.Search.Within

/-!
# Labels are realised by the paths that are reported

Following last links back from a node that a path tree reports comes to the source,
whatever links cost and whatever the bounds are.  The path that is found visits no node
twice.  Whoever follows its links from the start arrives with exactly the time, the cost
and the distance that are reported.  At any node on the way this holds of the path up to
there, which is the one reported for that node, and the bounds do not exclude it.

A bound excludes what it is not greater than, so it excludes nothing if it cannot be
compared.
-/

namespace JourneyTimes

variable {α : Type} [Scalar α]

namespace Search

variable {query : Query α} {label : Nat → Label α}

/-! ## Links along which labels come -/

/-- Links that lead from the source to a node, and along which the labels come. -/
inductive Traced (query : Query α) (label : Nat → Label α) :
    List (Graph.Link α) → Nat → Prop where
  | stay : Traced query label [] query.source
  | go {links : List (Graph.Link α)} {link : Graph.Link α}
      (before : Traced query label links link.origin) (comes : Comes query label link) :
      Traced query label (links ++ [link]) link.destination

namespace Traced

variable {links : List (Graph.Link α)} {node : Nat}

/-- The label of a node is that of the journey along which labels come to it. -/
theorem journey (traced : Traced query label links node)
    (departs : (label query.source).arrival = Arrival.departure query.start) :
    Journey query.graph query.cost query.source (Arrival.departure query.start) links node
      (label node).arrival := by
  induction traced with
  | stay =>
      rw [departs]
      exact .stay
  | go _ comes ih =>
      rw [comes.arrival_eq]
      exact ih.go comes.member rfl comes.usable

/-- Each link along which labels come is named by the label of its end. -/
theorem linked (traced : Traced query label links node) : Linked query label links node := by
  induction traced with
  | stay => exact .stay
  | go _ comes ih => exact ih.go comes.member comes.via_eq

/-- Labels come to every node on the way along the links up to there. -/
theorem upto (traced : Traced query label links node) {position middle : Nat}
    (found : (query.source :: links.map (·.destination))[position]? = some middle) :
    Traced query label (links.take position) middle := by
  induction traced with
  | stay =>
      cases position with
      | zero =>
          cases found
          exact .stay
      | succ position => cases found
  | @go links link before comes ih =>
      by_cases earlier : position ≤ links.length
      · rw [List.map_append, ← List.cons_append,
          List.getElem?_append_left (by simp; omega)] at found
        rw [List.take_append_of_le_length earlier]
        exact ih found
      · have inside := (List.getElem?_eq_some_iff.mp found).1
        obtain rfl : position = links.length + 1 := by simp at inside; omega
        obtain rfl : link.destination = middle := by simpa using found
        rw [List.take_of_length_le (by simp)]
        exact before.go comes

end Traced

/-- If labels come to nodes on a record from nodes recorded before them, they come to each
along nodes recorded before it. -/
theorem exists_traced {holds : Nat → Prop} {record : List Nat}
    (earlier : ∀ before node after, record = before ++ node :: after → holds node →
      node ≠ query.source →
        ComesFrom query label (fun origin => holds origin ∧ origin ∈ before) node)
    {before after : List Nat} {node : Nat} (split : record = before ++ node :: after)
    (nodeHolds : holds node) :
    ∃ links, Traced query label links node ∧
      (query.source :: links.map (·.destination)).Sublist (before ++ [node]) ∧
      ∀ visited ∈ query.source :: links.map (·.destination), holds visited := by
  induction length : before.length using Nat.strong_induction_on
    generalizing before node after with
  | _ _ ih =>
      by_cases isSource : node = query.source
      · subst isSource
        exact ⟨[], .stay, List.sublist_append_right _ _, by simpa using nodeHolds⟩
      · rcases earlier before node after split nodeHolds isSource with
          ⟨link, comes, rfl, originHolds, known⟩
        rcases List.append_of_mem known with ⟨first, rest, rfl⟩
        have sooner : record = first ++ link.origin :: (rest ++ link.destination :: after) := by
          rw [split, List.append_assoc, List.cons_append]
        have shorter : first.length < (first ++ link.origin :: rest).length := by simp
        rcases ih first.length (length ▸ shorter) sooner originHolds rfl with
          ⟨links, traced, sub, allHold⟩
        refine ⟨links ++ [link], traced.go comes, ?_, ?_⟩
        · rw [List.map_append, ← List.cons_append]
          refine List.Sublist.append (sub.trans ?_) (List.Sublist.refl _)
          exact (List.singleton_sublist.mpr (List.mem_cons_self ..)).append_left _
        · rw [List.map_append, ← List.cons_append]
          intro visited member
          rcases List.mem_append.mp member with old | new
          · exact allHold visited old
          · rw [List.mem_singleton.mp new]
            exact nodeHolds

/-- Labels come to every settled node, along nodes that were settled before it. -/
theorem Rooted.exists_traced {state : State α} (rooted : Rooted query state)
    {before after : List Nat} {node : Nat}
    (record : state.settled.toList = before ++ node :: after) :
    ∃ links, Traced query state.labels.get links node ∧
      (query.source :: links.map (·.destination)).Sublist (before ++ [node]) := by
  have earlier (before : List Nat) (node : Nat) (after : List Nat)
      (split : state.settled.toList = before ++ node :: after) (_ : True)
      (apart : node ≠ query.source) :
      ComesFrom query state.labels.get (fun origin => True ∧ origin ∈ before) node :=
    (rooted.earlier before node after split apart).mono fun _ known => ⟨trivial, known⟩
  rcases Search.exists_traced earlier record trivial with ⟨links, traced, sub, -⟩
  exact ⟨links, traced, sub⟩

/-- The way along which labels come to a settled node visits settled nodes, none of them
twice. -/
theorem Rooted.exists_simple {state : State α} (rooted : Rooted query state) {node : Nat}
    (settled : (state.labels.get node).settled = true) :
    ∃ links, Traced query state.labels.get links node ∧
      (query.source :: links.map (·.destination)).Nodup ∧
      ∀ visited ∈ query.source :: links.map (·.destination),
        (state.labels.get visited).settled = true := by
  rcases List.append_of_mem ((rooted.mem_iff node).mpr settled) with ⟨before, after, record⟩
  rcases rooted.exists_traced record with ⟨links, traced, sub⟩
  have whole : (query.source :: links.map (·.destination)).Sublist state.settled.toList := by
    rw [record, List.append_cons]
    exact sub.trans (List.sublist_append_left ..)
  exact ⟨links, traced, rooted.distinct.sublist whole,
    fun visited member => (rooted.mem_iff visited).mp (whole.subset member)⟩

end Search

namespace PathTree

variable {query : Search.Query α} {final : Search.State α} {tree : PathTree α}

/-! ## Following last links back -/

/-- Following last links back finds the way along which labels come. -/
theorem Answers.trace_eq (answers : Answers query final tree)
    (wellFormed : query.graph.WellFormed)
    (originVia : (final.labels.get query.source).via = none) {links : List (Graph.Link α)}
    {node : Nat} (traced : Search.Traced query final.labels.get links node) :
    tree.trace node =
      some (query.source :: links.map (·.destination), links.map (·.index)) :=
  answers.trace_eq_of_linked wellFormed originVia traced.linked

end PathTree

/-! ## Paths as they are reported -/

/-- A path that follows links to a node, none of which it visits twice, and that takes
what it takes to enter these links one after another. -/
structure Path.Follows (path : Path α) (graph : Graph α) (cost : CostModel α) (source : Nat)
    (start : α) (links : List (Graph.Link α)) (node : Nat) (arrival : Arrival α) : Prop where
  nodes_eq : path.nodes = source :: links.map (·.destination)
  links_eq : path.links = links.map (·.index)
  numbered : ∀ link ∈ links, graph.links[link.index]? = some link
  joins : ∀ position link, links[position]? = some link →
    path.nodes[position]? = some link.origin ∧
      path.nodes[position + 1]? = some link.destination
  ends : path.nodes[links.length]? = some node
  once : path.nodes.Nodup
  journey : Journey graph cost source (Arrival.departure start) links node arrival
  travelTime_eq : path.travelTime = arrival.time - start
  cost_eq : path.cost = arrival.cost
  distance_eq : path.distance = arrival.distance

namespace PathTree

section Answers

variable {query : Search.Query α} {final : Search.State α} {tree : PathTree α}

/-- The path to a node that is reported at the time of its label follows the links along
which labels come to it. -/
theorem Answers.follows_of_traced (answers : Answers query final tree)
    (wellFormed : query.graph.WellFormed)
    (originArrival : (final.labels.get query.source).arrival = Arrival.departure query.start)
    (originVia : (final.labels.get query.source).via = none) {links : List (Graph.Link α)}
    {node : Nat} (traced : Search.Traced query final.labels.get links node)
    (once : (query.source :: links.map (·.destination)).Nodup)
    (reported : tree.time? node = some (final.labels.get node).time) :
    ∃ path, tree.path? node = some path ∧
      path.Follows query.graph query.cost query.source query.start links node
        (final.labels.get node).arrival ∧
      tree.trace node = some (path.nodes, path.links) := by
  have journey := traced.journey originArrival
  have traceEq := answers.trace_eq wellFormed originVia traced
  refine ⟨⟨query.source :: links.map (·.destination), links.map (·.index),
    (final.labels.get node).time - query.start, (final.labels.get node).cost,
    (final.labels.get node).distance⟩, ?_, ?_, traceEq⟩
  · rw [path?, reported, traceEq, answers.start_eq, answers.label_eq]
    rfl
  · constructor
    case nodes_eq => rfl
    case links_eq => rfl
    case numbered =>
      exact fun link member => wellFormed.getElem?_index (journey.mem_links link member)
    case joins => exact fun position link found => journey.joins found
    case ends => exact journey.getElem?_length
    case once => exact once
    case journey => exact journey
    case travelTime_eq => rfl
    case cost_eq => rfl
    case distance_eq => rfl

variable (answers : Answers query final tree) (wellFormed : query.graph.WellFormed)
  (inside : query.source < query.graph.size) (rooted : Search.Rooted query final)

include answers wellFormed inside rooted

/-- A settled node is reported with what its label says. -/
theorem Answers.reports {node : Nat} (settled : (final.labels.get node).settled = true) :
    tree.time? node = some (final.labels.get node).time ∧
      tree.cost? node = some (final.labels.get node).cost ∧
      tree.distance? node = some (final.labels.get node).distance := by
  have nodeInside := Search.lt_of_waits rooted.toSound wellFormed inside
    (rooted.found_of_settled settled)
  have reached : tree.isReached node = true := by
    rw [answers.isReached_eq nodeInside (rooted.unpruned node settled)]
    exact settled
  rw [time?, cost?, distance?, answers.label_eq]
  exact ⟨if_pos reached, if_pos reached, if_pos reached⟩

/-- The path that is reported for a settled node follows the links along which labels
come to it. -/
theorem Answers.follows {links : List (Graph.Link α)} {node : Nat}
    (traced : Search.Traced query final.labels.get links node)
    (once : (query.source :: links.map (·.destination)).Nodup)
    (settled : (final.labels.get node).settled = true) :
    ∃ path, tree.path? node = some path ∧
      path.Follows query.graph query.cost query.source query.start links node
        (final.labels.get node).arrival ∧
      tree.trace node = some (path.nodes, path.links) :=
  answers.follows_of_traced wellFormed rooted.origin_arrival rooted.origin_via traced once
    (answers.reports wellFormed inside rooted settled).1

/-- Up to any node on the way, the path is the one that is reported for that node. -/
theorem Answers.follows_upto {links : List (Graph.Link α)} {node : Nat}
    (traced : Search.Traced query final.labels.get links node)
    (once : (query.source :: links.map (·.destination)).Nodup)
    (settled : ∀ visited ∈ query.source :: links.map (·.destination),
      (final.labels.get visited).settled = true) {position middle : Nat}
    (visited : (query.source :: links.map (·.destination))[position]? = some middle) :
    ∃ part, tree.path? middle = some part ∧
      part.Follows query.graph query.cost query.source query.start (links.take position) middle
        (final.labels.get middle).arrival := by
  have partOnce : (query.source :: (links.take position).map (·.destination)).Nodup :=
    once.sublist (((List.take_sublist position links).map _).cons_cons _)
  rcases
      answers.follows wellFormed inside rooted (traced.upto visited) partOnce
        (settled middle (List.mem_of_getElem? visited)) with
    ⟨part, found, follows, -⟩
  exact ⟨part, found, follows⟩

end Answers

variable {graph : Graph α} {cost : CostModel α} {landmarks : Option (Landmarks α)}
  {tree answered : PathTree α}

omit [Scalar α] in
theorem isReached_of_time? {node : Nat} {time : α} (reported : tree.time? node = some time) :
    tree.isReached node = true := by
  by_contra unreached
  rw [time?, if_neg unreached] at reported
  cases reported

/-- Whatever a path tree was asked before, what it keeps of a search without a goal is the
last state of that search. -/
theorem Used.rooted_of_calculate (used : Used graph cost landmarks tree)
    (wellFormed : graph.WellFormed) {source : Nat} {start : α} {bounds : SearchBounds α}
    (done : tree.calculate source start bounds = .ok answered) :
    ∃ final, source < graph.size ∧
      Answers (queryOn graph cost landmarks source start bounds none) final answered ∧
      Search.Rooted (queryOn graph cost landmarks source start bounds none) final := by
  have ready := used.ready
  have inside : source < graph.size := ready.graph_eq ▸ lt_of_calculate done
  rcases ready.answers_of_search (search_of_calculate done) with ⟨_, final, blank, ran, answers⟩
  exact ⟨final, inside, answers, Search.run_rooted wellFormed inside rfl blank ran⟩

/-- Every node that a path tree reports has a path that follows links from the source to
it and takes what is reported.  Up to any node on it, this is the path that is reported
for that node, and the bounds do not exclude it. -/
theorem calculate_follows (wellFormed : graph.WellFormed)
    (used : Used graph cost landmarks tree) {source : Nat} {start : α}
    {bounds : SearchBounds α} (done : tree.calculate source start bounds = .ok answered)
    {node : Nat} {time : α} (reported : answered.time? node = some time) :
    ∃ path links arrival, answered.path? node = some path ∧
      path.Follows graph cost source start links node arrival ∧
      answered.trace node = some (path.nodes, path.links) ∧
      answered.time? node = some arrival.time ∧ answered.cost? node = some arrival.cost ∧
      answered.distance? node = some arrival.distance ∧
      ∀ position middle, path.nodes[position]? = some middle →
        ∃ part, answered.path? middle = some part ∧
          part.nodes = path.nodes.take (position + 1) ∧
          part.links = path.links.take position ∧
          (∀ limit, bounds = .maxDistance limit → ¬ limit ≤ part.distance) ∧
          ∀ limit, bounds = .maxTravelTime limit → ¬ limit ≤ part.travelTime := by
  rcases used.rooted_of_calculate wellFormed done with ⟨final, inside, answers, rooted⟩
  have settled : (final.labels.get node).settled = true := by
    rw [← answers.label_eq]
    exact settled_of_isReached (isReached_of_time? reported)
  rcases rooted.exists_simple settled with ⟨links, traced, once, allSettled⟩
  rcases answers.follows wellFormed inside rooted traced once settled with
    ⟨path, found, follows, traces⟩
  rcases answers.reports wellFormed inside rooted settled with ⟨timeEq, costEq, distanceEq⟩
  refine ⟨path, links, _, found, follows, traces, timeEq, costEq, distanceEq, ?_⟩
  intro position middle visited
  rw [follows.nodes_eq] at visited
  rcases answers.follows_upto wellFormed inside rooted traced once allSettled visited with
    ⟨part, partFound, partFollows⟩
  have within := rooted.within middle (allSettled middle (List.mem_of_getElem? visited))
  refine ⟨part, partFound, ?_, ?_, ?_, ?_⟩
  · rw [partFollows.nodes_eq, follows.nodes_eq, List.take_succ_cons, List.map_take]
  · rw [partFollows.links_eq, follows.links_eq, List.map_take]
  · rintro limit rfl
    rw [partFollows.distance_eq]
    exact of_decide_eq_false within
  · rintro limit rfl
    rw [partFollows.travelTime_eq]
    exact of_decide_eq_false within

/-- The way to the last node of the triangle goes over the other one, which is not too far
away. -/
theorem calculate_follows_triangle :
    ∃ answered path links arrival part,
      (make Graph.triangle CostModel.gated).calculate 0 (28800 : ℚ) (.maxDistance (2500 : ℚ)) =
        .ok answered ∧
      answered.path? 2 = some path ∧
      path.Follows Graph.triangle CostModel.gated 0 (28800 : ℚ) links 2 arrival ∧
      path.nodes = [0, 1, 2] ∧ answered.path? 1 = some part ∧ part.nodes = [0, 1] ∧
      ¬ ((2500 : ℚ) : Exact ℚ) ≤ part.distance := by
  have found : (((make Graph.triangle CostModel.gated).calculateWithin 4 0 (28800 : ℚ)
      (.maxDistance (2500 : ℚ))).bind (·.pathWithin? 3 2)).map (·.nodes) = some [0, 1, 2] := by
    decide +kernel
  rcases Option.map_eq_some_iff.mp found with ⟨path, reported, nodesEq⟩
  rcases Option.bind_eq_some_iff.mp reported with ⟨answered, within, pathWithin⟩
  have done := calculate_of_within within
  have pathEq := path?_of_within pathWithin
  rcases Option.bind_eq_some_iff.mp pathEq with ⟨time, timeEq, -⟩
  rcases calculate_follows Graph.triangle_wellFormed .make done timeEq with
    ⟨same, links, arrival, sameEq, follows, -, -, -, -, upto⟩
  obtain rfl : path = same := Option.some.inj (pathEq.symm.trans sameEq)
  rcases upto 1 1 (by rw [nodesEq]; rfl) with ⟨part, partEq, partNodes, -, within, -⟩
  refine ⟨answered, path, links, arrival, part, done, pathEq, follows, nodesEq, partEq, ?_,
    within _ rfl⟩
  rw [partNodes, nodesEq]
  rfl

/-- A bound that cannot be compared prunes nothing, though no distance is less than it. -/
theorem calculate_undefined_maxDistance :
    ∃ answered path,
      (make Graph.triangle CostModel.gated).calculate 0 (28800 : ℚ) (.maxDistance .undefined) =
        .ok answered ∧
      answered.path? 2 = some path ∧ path.distance = (2000 : ℚ) ∧
      ¬ path.distance < (.undefined : Exact ℚ) := by
  have found : (((make Graph.triangle CostModel.gated).calculateWithin 4 0 (28800 : ℚ)
      (.maxDistance .undefined)).bind (·.pathWithin? 3 2)).map (·.distance) =
        some ((2000 : ℚ) : Exact ℚ) := by
    decide +kernel
  rcases Option.map_eq_some_iff.mp found with ⟨path, reported, distanceEq⟩
  rcases Option.bind_eq_some_iff.mp reported with ⟨answered, within, pathWithin⟩
  refine ⟨answered, path, calculate_of_within within, path?_of_within pathWithin, distanceEq, ?_⟩
  rw [distanceEq]
  decide +kernel

end PathTree

end JourneyTimes
