import JourneyTimes.Proofs.Matrix.Agreement
import JourneyTimes.Proofs.Network.Clean
import JourneyTimes.Proofs.Scalar.Sorted
import JourneyTimes.Proofs.Search.Outreach

/-!
# Matrices over clean networks

In a graph of a clean network every node reaches every other one.  If all links can be
driven along in finite time, a matrix over such a graph does not fail because of zones that
are not connected, unless times add up to infinity.  Exact times never do.  Doubles do when
they are large enough, and then a node that can be reached is missed.
-/

namespace JourneyTimes

variable {α : Type} [Scalar α]

/-! ## Driving times -/

namespace Graph

/-- The time that it takes to drive along links without delay, added up link after link. -/
def drivingTime (links : List (Link α)) : α :=
  links.foldl (fun total link => total + link.length / link.freeSpeed) 0

/-- Driving takes less than infinity if no node is visited twice. -/
def AddsUp (graph : Graph α) : Prop :=
  ∀ origin links node, graph.Walk origin links node →
    (origin :: links.map (·.destination)).Nodup → drivingTime links < Scalar.infinity

/-- Whoever travels without delay follows a walk, and its driving time is the cost. -/
theorem walk_of_journey {graph : Graph α} {origin node : Nat} {start : α} {arrival : Arrival α}
    {links : List (Link α)}
    (journey : Journey graph .freeSpeed origin (.departure start) links node arrival) :
    graph.Walk origin links node ∧ arrival.cost = drivingTime links := by
  induction journey with
  | stay => exact ⟨.stay origin, rfl⟩
  | @go links node here link before member leaves _ ih =>
      subst leaves
      rcases ih with ⟨walk, cost⟩
      refine ⟨walk.append (.go member (.stay _)), ?_⟩
      rw [drivingTime, List.foldl_concat]
      exact congrArg (· + link.length / link.freeSpeed) cost

theorem AddsUp.staysBelow {graph : Graph α} (addsUp : graph.AddsUp) (source : Nat) (start : α) :
    CostModel.freeSpeed.StaysBelow graph source start := by
  intro links node arrival journey once
  rcases walk_of_journey journey with ⟨walk, cost⟩
  rw [cost]
  exact addsUp source links node walk once

/-- Exact times that are finite add up to a finite one. -/
theorem addsUp_of_finite {K : Type} [Field K] [LinearOrder K] [FloorRing K] [Trigonometry K]
    {graph : Graph (Exact K)}
    (finite : ∀ link ∈ graph.links, Scalar.isFinite (link.length / link.freeSpeed) = true) :
    graph.AddsUp := by
  intro origin links node walk _
  have sum (links : List (Link (Exact K))) (members : ∀ link ∈ links, link ∈ graph.links) :
      ∃ total : K, drivingTime links = .finite total := by
    induction links using List.reverseRecOn with
    | nil => exact ⟨0, rfl⟩
    | append_singleton links link ih =>
        rcases ih fun other member => members other (List.mem_append_left _ member) with
          ⟨total, isTotal⟩
        rcases Exact.isFinite_iff.mp (finite link (members link (by simp))) with ⟨more, isMore⟩
        refine ⟨total + more, ?_⟩
        rw [drivingTime, List.foldl_concat, isMore]
        exact (congrArg (· + Exact.finite more) isTotal).trans (Exact.finite_add_finite ..)
  rcases sum links walk.mem_links with ⟨total, isTotal⟩
  rw [isTotal]
  exact Exact.finite_lt_infinity total

/-! ## Walks in graphs of networks -/

omit [Scalar α] in
/-- Where nodes of a network reach each other, walks lead from one to the other. -/
theorem Depicts.exists_walk {graph : Graph α} {network : Network α}
    (depicts : graph.Depicts network) (wellFormed : network.WellFormed)
    {origin destination : String} (reaches : network.Reaches origin destination)
    {first last : Nat} (firstFound : network.nodeIds[first]? = some origin)
    (lastFound : network.nodeIds[last]? = some destination) :
    ∃ links, graph.Walk first links last := by
  have same {left right : Nat} {id : String} (leftFound : network.nodeIds[left]? = some id)
      (rightFound : network.nodeIds[right]? = some id) : left = right :=
    (List.getElem?_inj (List.getElem?_eq_some_iff.mp leftFound).1 wellFormed.nodup_nodeIds).mp
      (leftFound.trans rightFound.symm)
  induction reaches generalizing last with
  | refl => exact ⟨[], same firstFound lastFound ▸ .stay first⟩
  | tail _ joins ih =>
      rcases joins with ⟨link, member, rfl, rfl⟩
      rcases exists_of_forall₂ depicts.links (Array.mem_toList_iff.mpr member) with
        ⟨made, madeMember, stands⟩
      rcases ih stands.origin with ⟨links, walk⟩
      obtain rfl := same stands.destination lastFound
      exact ⟨links ++ [made], walk.append (.go (Array.mem_toList_iff.mp madeMember) (.stay _))⟩

omit [Scalar α] in
/-- What holds of the length and the free speed of every link of a network holds of those of
every link of a graph. -/
theorem Depicts.forall_links {graph : Graph α} {network : Network α}
    (depicts : graph.Depicts network) (holds : α → α → Prop)
    (every : ∀ link ∈ network.links, holds link.length link.freeSpeed) :
    ∀ link ∈ graph.links, holds link.length link.freeSpeed := by
  intro made member
  rcases exists_of_forall₂ depicts.links.flip (Array.mem_toList_iff.mpr member) with
    ⟨link, linkMember, stands⟩
  rw [stands.length_eq, stands.freeSpeed_eq]
  exact every link (Array.mem_toList_iff.mp linkMember)

end Graph

namespace MatrixBuilder

variable {ζ : Type} [BEq ζ] [Hashable ζ] [ZoneName ζ] {builder : MatrixBuilder α}
  {central : List (ζ × Nat)} {departure : α}

/-- Without workers, or with a central node that the graph does not have, there is another
error than that zones are not connected. -/
theorem denseMatrix_ne_disconnected
    (succeeds : 0 < builder.workers → (∀ zone ∈ central, zone.2 < builder.graph.size) →
      ∃ matrix : Matrix ζ α, builder.denseMatrix central departure = .ok matrix)
    (origin destination : String) :
    (builder.denseMatrix central departure : Except Error (Matrix ζ α)) ≠
      .error (.disconnected origin destination) := by
  intro failed
  cases checked : ((sortZones central).map (·.2)).forM builder.graph.checkNode with
  | error error =>
      rcases Graph.exists_of_forM_checkNode_error checked with ⟨node, -, -, rfl⟩
      rw [denseMatrix, checked] at failed
      cases failed
  | ok _ =>
      have inside : ∀ zone ∈ central, zone.2 < builder.graph.size := by
        intro zone member
        exact Graph.lt_of_forM_checkNode checked zone.2
          (List.mem_map_of_mem ((sortZones_perm central).mem_iff.mpr member))
      rcases Nat.eq_zero_or_pos builder.workers with none | staffed
      · rw [denseMatrix, checked, ok_bind, startPool, none] at failed
        cases failed
      · rcases succeeds staffed inside with ⟨matrix, done⟩
        rw [done] at failed
        cases failed

variable [LawfulBEq ζ] (staffed : 0 < builder.workers) (nodup : (central.map Prod.fst).Nodup)
  (inside : ∀ zone ∈ central, zone.2 < builder.graph.size)

include staffed nodup inside

/-- If searches from all central nodes have an answer and there is no matrix, then because zones
are not connected. -/
theorem denseMatrix_disconnected
    (answers : ∀ origin ∈ central, ∃ answered,
      builder.tree.calculate origin.2 departure .unbounded = .ok answered)
    (missing : ¬ ∃ matrix : Matrix ζ α, builder.denseMatrix central departure = .ok matrix) :
    ∃ origin ∈ central, ∃ destination ∈ central,
      (builder.denseMatrix central departure : Except Error (Matrix ζ α)) =
        .error (.disconnected (builder.graph.nodeId origin.2)
          (builder.graph.nodeId destination.2)) := by
  have sorted := sortZones_perm central
  have sortedNodup : ((sortZones central).map Prod.fst).Nodup :=
    (sorted.map Prod.fst).nodup_iff.mpr nodup
  have checked : ((sortZones central).map (·.2)).forM builder.graph.checkNode = .ok () := by
    refine Graph.forM_checkNode fun node member => ?_
    rcases List.mem_map.mp member with ⟨zone, zoneMember, rfl⟩
    exact inside zone (sorted.mem_iff.mp zoneMember)
  rcases startPool_idle staffed with ⟨pool, started, idle⟩
  have uniform : Job.IsUniform (rowJob builder.graph ((sortZones central).map Prod.snd) departure :
      Job _ (ζ × Nat) _ (Matrix ζ α)) _ builder.tree := rowJob_isUniform builder _ departure
  have apart := rowJob_writesApart builder ((sortZones central).map Prod.snd) departure sortedNodup
  have begins : (Matrix.make ((sortZones central).map Prod.fst) : Matrix ζ α).IsOver
      ((sortZones central).map Prod.fst) := Matrix.make_isOver sortedNodup
  rcases idle.submit_run uniform apart begins with ⟨order, final, run, ended, submitted⟩
  rw [denseMatrix_eq_submit started checked, submitted] at missing ⊢
  cases result : final.result with
  | ok matrix => exact absurd ⟨matrix, result⟩ missing
  | error error =>
      rcases run.exists_failed uniform apart idle begins ended result with
        ⟨origin, member, matrix, isOver, taskFailed⟩
      have originMember := sorted.mem_iff.mp member
      rcases answers origin originMember with ⟨answered, calculated⟩
      have read := mapM_of_outcome_error member isOver calculated taskFailed
      rcases exists_of_mapM_eq_error read with ⟨before, node, after, split, -, stopped⟩
      rcases List.mem_map.mp (split ▸ by simp : node ∈ (sortZones central).map Prod.snd) with
        ⟨destination, destinationMember, rfl⟩
      refine ⟨origin, originMember, destination, sorted.mem_iff.mp destinationMember, ?_⟩
      rw [timeTo] at stopped
      cases timed : answered.time? destination.2 with
      | some time =>
          rw [timed] at stopped
          cases stopped
      | none =>
          rw [timed] at stopped
          cases stopped
          rfl

/-- Where walks lead from every node to every other one, and take less than infinity if they
visit no node twice, there is a matrix. -/
theorem denseMatrix_of_walks [IsStrictOrder α (· < ·)] (wellFormed : builder.graph.WellFormed)
    (passable : ∀ link ∈ builder.graph.links, builder.cost.prices link = true ∧
      ∀ time, Scalar.isFinite (builder.cost.travelTime link time) = true)
    (below : ∀ source, builder.cost.StaysBelow builder.graph source departure)
    (walks : ∀ origin < builder.graph.size, ∀ destination < builder.graph.size,
      ∃ links, builder.graph.Walk origin links destination) :
    ∃ matrix : Matrix ζ α, builder.denseMatrix central departure = .ok matrix := by
  refine (denseMatrix_ok_iff staffed nodup).mpr fun origin member => ?_
  rcases PathTree.calculate_of_walks wellFormed passable builder.used_tree (inside origin member)
    (below origin.2) with ⟨answered, calculated, reports⟩
  refine ⟨answered, calculated, fun destination destinationMember => ?_⟩
  rcases walks origin.2 (inside origin member) destination.2 (inside destination destinationMember)
    with ⟨links, walk⟩
  exact reports links destination.2 walk

end MatrixBuilder

/-- Whatever the zones are, no matrix of driving times over the graph fails because zones are
not connected, and if there are workers and central nodes are nodes, there is a matrix. -/
def Graph.ConnectsZones (ζ : Type) [BEq ζ] [Hashable ζ] [ZoneName ζ] (graph : Graph α) : Prop :=
  ∀ (workers : Nat) (landmarks : Option (Landmarks α)) (central : List (ζ × Nat)) (departure : α),
    (central.map Prod.fst).Nodup →
      (∀ origin destination, (MatrixBuilder.denseMatrix ⟨graph, .freeSpeed, workers, landmarks⟩
        central departure : Except Error (Matrix ζ α)) ≠
          .error (.disconnected origin destination)) ∧
      (0 < workers → (∀ zone ∈ central, zone.2 < graph.size) →
        ∃ matrix : Matrix ζ α, MatrixBuilder.denseMatrix ⟨graph, .freeSpeed, workers, landmarks⟩
          central departure = .ok matrix)

namespace Network

open Components (FindsComponents)

section

variable {ζ : Type} [BEq ζ] [Hashable ζ] [ZoneName ζ] [LawfulBEq ζ] [IsStrictOrder α (· < ·)]

/-- Zones are connected in a graph of a network whose nodes reach each other, if times are
finite and stay so. -/
theorem WellFormed.connectsZones {network : Network α} (wellFormed : network.WellFormed)
    (connected : ∀ origin ∈ network.nodeIds, ∀ destination ∈ network.nodeIds,
      network.Reaches origin destination) {identity : Nat} {graph : Graph α}
    (made : Graph.ofNetwork identity network = .ok graph)
    (finite : ∀ link ∈ network.links, Scalar.isFinite (link.length / link.freeSpeed) = true)
    (addsUp : graph.AddsUp) : graph.ConnectsZones ζ := by
  have depicts := wellFormed.depicts made
  have size : graph.size = network.nodeIds.length := by
    rw [Graph.size, ← Array.length_toList, depicts.nodes_eq]
    simp [nodeIds]
  have walks : ∀ origin < graph.size, ∀ destination < graph.size,
      ∃ links, graph.Walk origin links destination := by
    rw [size]
    intro origin originInside destination destinationInside
    have originFound := List.getElem?_eq_getElem originInside
    have destinationFound := List.getElem?_eq_getElem destinationInside
    exact depicts.exists_walk wellFormed (connected _ (List.mem_of_getElem? originFound) _
      (List.mem_of_getElem? destinationFound)) originFound destinationFound
  have passable := depicts.forall_links
    (fun length speed => Scalar.isFinite (length / speed) = true) finite
  intro workers landmarks central departure nodup
  have succeeds (staffed : 0 < workers) (inside : ∀ zone ∈ central, zone.2 < graph.size) :
      ∃ matrix : Matrix ζ α, MatrixBuilder.denseMatrix ⟨graph, .freeSpeed, workers, landmarks⟩
        central departure = .ok matrix :=
    MatrixBuilder.denseMatrix_of_walks staffed nodup inside (Graph.ofNetwork_wellFormed made)
      (fun link member => ⟨rfl, fun _ => passable link member⟩)
      (fun source => addsUp.staysBelow source departure) walks
  exact ⟨MatrixBuilder.denseMatrix_ne_disconnected succeeds, succeeds⟩

/-- However components are found, cleaning a network with nodes leaves a largest component
of it, in which every node reaches every other one and which is not changed when it is
cleaned again.  In a graph of it zones are connected. -/
theorem clean_connected {network : Network α} (wellFormed : network.WellFormed)
    (inhabited : 0 < network.nodes.size) :
    (FindsComponents Components.components ∧
      network.clean = network.cleanBy Components.components) ∧
    ∀ find, FindsComponents find →
      network.IsCleaned (network.cleanBy find) ∧
      (∀ origin ∈ (network.cleanBy find).nodeIds, ∀ destination ∈ (network.cleanBy find).nodeIds,
        (network.cleanBy find).Reaches origin destination) ∧
      (network.cleanBy find).cleanBy find = network.cleanBy find ∧
      ∀ identity, ∃ graph, Graph.ofNetwork identity (network.cleanBy find) = .ok graph ∧
        ((∀ link ∈ (network.cleanBy find).links,
            Scalar.isFinite (link.length / link.freeSpeed) = true) →
          graph.AddsUp → graph.ConnectsZones ζ) := by
  refine ⟨⟨Components.components_findsComponents, rfl⟩, fun find finds => ?_⟩
  have isCleaned := cleanBy_isCleaned finds wellFormed inhabited
  have connected : ∀ origin ∈ (network.cleanBy find).nodeIds,
      ∀ destination ∈ (network.cleanBy find).nodeIds,
        (network.cleanBy find).Reaches origin destination :=
    fun _ originKept _ => isCleaned.reaches wellFormed originKept
  have cleanWellFormed : (network.cleanBy find).WellFormed := .cleanBy find network
  refine ⟨isCleaned, connected, cleanBy_cleanBy finds wellFormed inhabited, fun identity => ?_⟩
  rcases cleanWellFormed.exists_graph identity with ⟨graph, made⟩
  exact ⟨graph, made, cleanWellFormed.connectsZones connected made⟩

end

/-! ## A dead end and a ring -/

/-- Two nodes with a link either way, and a dead end. -/
def deadEnd (length : α) : Network α :=
  ofParts [⟨"a", ⟨0, 0⟩⟩, ⟨"b", ⟨Scalar.ofNat 1, 0⟩⟩, ⟨"c", ⟨Scalar.ofNat 2, 0⟩⟩]
    [.road "ab" "a" "b" length (Scalar.ofNat 1), .road "ba" "b" "a" length (Scalar.ofNat 1),
      .road "bc" "b" "c" length (Scalar.ofNat 1)]

theorem deadEnd_wellFormed (length : α) : (deadEnd length).WellFormed :=
  .ofParts (by simp [Link.road])

theorem nodeIds_deadEnd (length : α) : (deadEnd length).nodeIds = ["a", "b", "c"] := by
  simp [deadEnd, ofParts, addNode, empty, nodeIds]

/-- Cleaning drops the dead end. -/
theorem IsCleaned.drops_deadEnd {length : α} {cleaned : Network α}
    (isCleaned : (deadEnd length).IsCleaned cleaned) : "c" ∉ cleaned.nodeIds := by
  have stuck {id : String} (reaches : (deadEnd length).Reaches "c" id) : id = "c" := by
    rcases Relation.ReflTransGen.cases_head reaches with same | ⟨next, ⟨link, member, leaves, -⟩, -⟩
    · exact same.symm
    · simp only [deadEnd, ofParts, List.mem_toArray, List.mem_cons, List.not_mem_nil,
        or_false] at member
      rcases member with rfl | rfl | rfl <;> simp [Link.road] at leaves
  have joined : ∀ first ∈ ["a", "b"], ∀ second ∈ ["a", "b"],
      (deadEnd length).Reaches first second := by
    have there : (deadEnd length).Reaches "a" "b" :=
      .single ⟨.road "ab" "a" "b" length (Scalar.ofNat 1), by simp [deadEnd, ofParts], rfl, rfl⟩
    have back : (deadEnd length).Reaches "b" "a" :=
      .single ⟨.road "ba" "b" "a" length (Scalar.ofNat 1), by simp [deadEnd, ofParts], rfl, rfl⟩
    intro first firstMember second secondMember
    simp only [List.mem_cons, List.not_mem_nil, or_false] at firstMember secondMember
    rcases firstMember with rfl | rfl <;> rcases secondMember with rfl | rfl
    exacts [.refl, there, back, .refl]
  have pair : (deadEnd length).IsComponent ["a", "b"] := by
    refine ⟨by decide, by decide, fun id member other => ?_⟩
    rw [nodeIds_deadEnd]
    constructor
    · exact fun known => ⟨List.mem_append_left ["c"] known, joined id member other known,
        joined other known id member⟩
    · rintro ⟨known, -, back⟩
      rcases List.mem_append.mp (show other ∈ ["a", "b"] ++ ["c"] from known) with inside | last
      · exact inside
      · obtain rfl := List.mem_singleton.mp last
        rw [stuck back] at member
        simp at member
  intro kept
  have alone : cleaned.nodeIds ⊆ ["c"] := fun id member =>
    List.mem_singleton.mpr (stuck ((isCleaned.isComponent.mem_iff "c" kept id).mp member).2.1)
  have most := isCleaned.largest ["a", "b"] pair
  have few := (isCleaned.isComponent.nodup.subperm alone).length_le
  simp [nodeIds] at most few
  omega

theorem deadEnd_inhabited (length : α) : 0 < (deadEnd length).nodes.size := by
  simp [deadEnd, ofParts, addNode, empty]

/-- Every link of what is left is one of the three. -/
theorem forall_links_clean_deadEnd (length : α) (holds : α → α → Prop)
    (each : holds length (Scalar.ofNat 1)) :
    ∀ link ∈ (deadEnd length).clean.links, holds link.length link.freeSpeed := by
  intro link member
  have known := mem_links_clean member
  simp only [deadEnd, ofParts, List.mem_toArray, List.mem_cons, List.not_mem_nil,
    or_false] at known
  rcases known with rfl | rfl | rfl <;> exact each

/-- However components are found, the dead end is cleaned away, and zones are connected in a
graph of what is left. -/
theorem clean_connected_deadEnd :
    let network : Network (Exact ℚ) := deadEnd (100 : ℚ)
    network.WellFormed ∧ 0 < network.nodes.size ∧ network.IsCleaned network.clean ∧
      "c" ∉ network.clean.nodeIds ∧
      ∃ graph, Graph.ofNetwork 0 network.clean = .ok graph ∧ graph.ConnectsZones String := by
  have wellFormed := deadEnd_wellFormed (α := Exact ℚ) (100 : ℚ)
  have inhabited := deadEnd_inhabited (α := Exact ℚ) (100 : ℚ)
  have finite := forall_links_clean_deadEnd (α := Exact ℚ) (100 : ℚ)
    (fun length speed => Scalar.isFinite (length / speed) = true) (by decide +kernel)
  rcases clean_connected (ζ := String) wellFormed inhabited with ⟨⟨finds, -⟩, cleans⟩
  rcases cleans Components.components finds with ⟨isCleaned, -, -, graphs⟩
  rw [← clean_eq_cleanBy] at isCleaned graphs
  rcases graphs 0 with ⟨graph, made, connects⟩
  have depicts := (WellFormed.clean (deadEnd (α := Exact ℚ) (100 : ℚ))).depicts made
  have passable := depicts.forall_links
    (fun length speed => Scalar.isFinite (length / speed) = true) finite
  exact ⟨wellFormed, inhabited, isCleaned, isCleaned.drops_deadEnd, graph, made,
    connects finite (Graph.addsUp_of_finite passable)⟩

/-- Three links around, of the same length. -/
def ring (length : α) : Network α :=
  ofParts [⟨"a", ⟨0, 0⟩⟩, ⟨"b", ⟨Scalar.ofNat 1, 0⟩⟩, ⟨"c", ⟨Scalar.ofNat 2, 0⟩⟩]
    [.road "ab" "a" "b" length (Scalar.ofNat 1), .road "bc" "b" "c" length (Scalar.ofNat 1),
      .road "ca" "c" "a" length (Scalar.ofNat 1)]

theorem ring_eq (length : α) : ring length =
    { nodes := #[⟨"a", ⟨0, 0⟩⟩, ⟨"b", ⟨Scalar.ofNat 1, 0⟩⟩, ⟨"c", ⟨Scalar.ofNat 2, 0⟩⟩]
      links := #[.road "ab" "a" "b" length (Scalar.ofNat 1),
        .road "bc" "b" "c" length (Scalar.ofNat 1), .road "ca" "c" "a" length (Scalar.ofNat 1)]
      positions := (∅ : Std.HashMap String Nat).insert "a" 0 |>.insert "b" 1 |>.insert "c" 2 } := by
  simp [ring, ofParts, addNode, empty]

theorem ring_wellFormed (length : α) : (ring length).WellFormed :=
  .ofParts (by simp [Link.road])

/-- Every node of the ring reaches every other one. -/
theorem ring_reaches (length : α) : ∀ origin ∈ (ring length).nodeIds,
    ∀ destination ∈ (ring length).nodeIds, (ring length).Reaches origin destination := by
  have joins (link : Link α) (member : link ∈ (ring length).links) :
      (ring length).Reaches link.origin link.destination := .single ⟨link, member, rfl, rfl⟩
  have ids : (ring length).nodeIds = ["a", "b", "c"] := by simp [ring_eq, nodeIds]
  have first : (ring length).Reaches "a" "b" :=
    joins (.road "ab" "a" "b" length (Scalar.ofNat 1)) (by simp [ring, ofParts])
  have second : (ring length).Reaches "b" "c" :=
    joins (.road "bc" "b" "c" length (Scalar.ofNat 1)) (by simp [ring, ofParts])
  have third : (ring length).Reaches "c" "a" :=
    joins (.road "ca" "c" "a" length (Scalar.ofNat 1)) (by simp [ring, ofParts])
  have through : ∀ id ∈ ["a", "b", "c"],
      (ring length).Reaches id "a" ∧ (ring length).Reaches "a" id := by
    intro id member
    simp only [List.mem_cons, List.not_mem_nil, or_false] at member
    rcases member with rfl | rfl | rfl
    exacts [⟨.refl, .refl⟩, ⟨second.trans third, first⟩, ⟨third, first.trans second⟩]
  rw [ids]
  exact fun origin originMember destination destinationMember =>
    (through origin originMember).1.trans (through destination destinationMember).2

/-- A ring is clean already. -/
theorem ring_clean (length : α) : (ring length).clean = ring length := by
  have inhabited : 0 < (ring length).nodes.size := by
    simp [ring_eq]
  have counted : (ring length).positions = (ofParts (ring length).nodes.toList []).positions := by
    simp [ring_eq, ofParts, addNode, empty]
  exact (clean_eq_cleanBy _).trans (cleanBy_eq_self Components.components_findsComponents
    (ring_wellFormed length) inhabited counted (ring_reaches length))

/-- The graph of a ring. -/
def ringGraph (length : α) : Graph α where
  identity := 0
  nodes := #[⟨0, "a", ⟨0, 0⟩⟩, ⟨1, "b", ⟨Scalar.ofNat 1, 0⟩⟩, ⟨2, "c", ⟨Scalar.ofNat 2, 0⟩⟩]
  links := #[⟨0, "ab", 0, 1, length, Scalar.ofNat 1, none⟩,
    ⟨1, "bc", 1, 2, length, Scalar.ofNat 1, none⟩, ⟨2, "ca", 2, 0, length, Scalar.ofNat 1, none⟩]
  positions := (∅ : Std.HashMap String Nat).insert "a" 0 |>.insert "b" 1 |>.insert "c" 2
  outgoing := FirstOut.ofKeys 3 [0, 1, 2]
  incoming := FirstOut.ofKeys 3 [1, 2, 0]

theorem ofNetwork_ring (length : α) : Graph.ofNetwork 0 (ring length) = .ok (ringGraph length) := by
  rw [ring_eq]
  simp [Graph.ofNetwork, List.zipIdx, Graph.Link.ofNetwork, Graph.resolve,
    Std.HashMap.getElem?_insert, Graph.Node.ofNetwork, Link.road, ringGraph]

/-- A length that is a double, while twice the length is more than any double. -/
def vast : Float := Scalar.ofNat (10 ^ 154 * 10 ^ 154)

/-- A search in a ring with such links finds the node that is next, and not the one after it. -/
theorem calculate_ringGraph : ∀ source < 3, ∃ answered,
    (MatrixBuilder.make (ringGraph vast) .freeSpeed 1).tree.calculate source 0 .unbounded =
        .ok answered ∧
        answered.reached.toList = [source, (source + 1) % 3] ∧
        answered.time? ((source + 2) % 3) = none := by
  have searched : ∀ source < 3,
      ((MatrixBuilder.make (ringGraph vast) .freeSpeed 1).tree.calculateWithin
        4 source 0 .unbounded).any (fun tree =>
          decide (tree.reached.toList = [source, (source + 1) % 3] ∧
            tree.time? ((source + 2) % 3) = none)) = true := by
    decide +kernel
  intro source inside
  rcases PathTree.exists_of_calculateWithin (searched source inside) with ⟨answered, done, found⟩
  exact ⟨answered, done, of_decide_eq_true found⟩

/-- Doubles are not enough for two links of such a ring, so a search does not find the node
after the next one, though the network is clean and each of its links takes a finite time. -/
theorem ring_disconnected :
    let network : Network Float := ring vast
    network.WellFormed ∧ 0 < network.nodes.size ∧ network.clean = network ∧
      (∀ link ∈ network.clean.links, Scalar.isFinite (link.length / link.freeSpeed) = true) ∧
      ∃ graph, Graph.ofNetwork 0 network.clean = .ok graph ∧ ∃ origin destination,
        ((MatrixBuilder.make graph .freeSpeed 1).denseMatrix [("a", 0), ("c", 2)] 0 :
          Except Error (Matrix String Float)) = .error (.disconnected origin destination) := by
  intro network
  have same : network.clean = network := ring_clean _
  have inhabited : 0 < network.nodes.size := by
    simp [network, ring_eq]
  have each : Scalar.isFinite (vast / Scalar.ofNat 1) = true := by decide +kernel
  have finite : ∀ link ∈ network.links,
      Scalar.isFinite (link.length / link.freeSpeed) = true := by
    intro link member
    simp only [network, ring_eq, List.mem_toArray, List.mem_cons, List.not_mem_nil,
      or_false] at member
    rcases member with rfl | rfl | rfl <;> exact each
  rw [same]
  refine ⟨ring_wellFormed _, inhabited, rfl, finite, _, ofNetwork_ring _, ?_⟩
  have missing : ¬ ∃ matrix : Matrix String Float,
      (MatrixBuilder.make (ringGraph vast) .freeSpeed 1).denseMatrix [("a", 0), ("c", 2)] 0 =
        .ok matrix := by
    rw [MatrixBuilder.denseMatrix_ok_iff Nat.one_pos (by decide)]
    intro swept
    rcases swept ("a", 0) (by simp) with ⟨tree, done, reports⟩
    rcases calculate_ringGraph 0 (by decide) with ⟨answered, calculated, -, missed⟩
    obtain rfl : tree = answered := Except.ok.inj (done.symm.trans calculated)
    have found := reports ("c", 2) (by simp)
    rw [missed] at found
    cases found
  have answers : ∀ origin ∈ [("a", 0), ("c", 2)], ∃ answered,
      (MatrixBuilder.make (ringGraph vast) .freeSpeed 1).tree.calculate origin.2 0 .unbounded =
        .ok answered := by
    intro origin member
    have inside : origin.2 < 3 :=
      (by decide : ∀ zone ∈ [("a", 0), ("c", 2)], zone.2 < 3) origin member
    rcases calculate_ringGraph origin.2 inside with ⟨answered, calculated, -, -⟩
    exact ⟨answered, calculated⟩
  rcases MatrixBuilder.denseMatrix_disconnected (ζ := String) Nat.one_pos (by decide) (by decide)
    answers missing with ⟨origin, -, destination, -, failed⟩
  exact ⟨_, _, failed⟩

end Network

end JourneyTimes
