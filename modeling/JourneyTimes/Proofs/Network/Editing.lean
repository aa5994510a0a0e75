import JourneyTimes.Network.Document
import JourneyTimes.Numeral.Shortest
import JourneyTimes.Proofs.Network.Grid
import JourneyTimes.Scalar.Double

/-!
# Networks in place

A network is changed in place by whoever builds it: nodes and links are added to it, links
that are refused included, and it is replaced by what is read from a document, by a grid
city, by its part for a mode or by its clean part.

Whatever has been done to a network, it is well-formed.  Three of the changes put links in
without looking their ends up again; they do not have to, since the links come from a
network that was well-formed before, or join crossings that were all added.
-/

namespace JourneyTimes.Network

variable {α : Type} [Scalar α] [Numeric α]

/-- What can be done to a network. -/
inductive Edit (α : Type) where
  | renew
  | addNode (id : String) (place : Point α)
  | addLink (link : Link α)
  | read (document : String)
  | layGrid (plan : GridPlan α)
  | filterByMode (mode : String)
  | clean

/-- Refuse an id that no node has. -/
def checkEnd (id : String) : EStateM Error (Network α) Unit := do
  let network ← get
  if network.positions.contains id then pure () else throw (.unknownNode id)

/-- Replace a network by what has been read, if it could be read. -/
def replaceBy : Except Error (Network α) → EStateM Error (Network α) Unit
  | .ok network => set network
  | .error error => throw error

/-- Change a network in place.  The ends of a link are looked up, the origin first, before
anything is changed. -/
def Edit.perform : Edit α → EStateM Error (Network α) Unit
  | .renew => set (empty : Network α)
  | .addNode id place => modify (·.addNode id place)
  | .addLink link => do
    checkEnd link.origin
    checkEnd link.destination
    modify fun network => { network with links := network.links.push link }
  | .read document => replaceBy (ofDocument document)
  | .layGrid plan => set (grid plan)
  | .filterByMode mode => modify (·.filterByMode mode)
  | .clean => modify (·.clean)

/-- The network that is left of a change, be it made or refused. -/
def after (network : Network α) (edit : Edit α) : Network α :=
  match edit.perform network with
  | .ok _ changed => changed
  | .error _ refused => refused

/-! ## Reading -/

namespace WellFormed

variable {network next : Network α} {attributes : List Markup.Attribute}

omit [Scalar α] in
theorem readNode (wellFormed : network.WellFormed)
    (read : network.readNode attributes = .ok next) : next.WellFormed := by
  rcases bind_eq_ok.mp read with ⟨id, -, read⟩
  rcases bind_eq_ok.mp read with ⟨x, -, read⟩
  rcases bind_eq_ok.mp read with ⟨y, -, read⟩
  cases read
  exact wellFormed.addNode id ⟨x, y⟩

theorem readLink (wellFormed : network.WellFormed)
    (read : network.readLink attributes = .ok next) : next.WellFormed := by
  rcases bind_eq_ok.mp read with ⟨id, -, read⟩
  rcases bind_eq_ok.mp read with ⟨origin, -, read⟩
  rcases bind_eq_ok.mp read with ⟨destination, -, read⟩
  split_ifs at read with loop
  · cases read
    exact wellFormed
  · rcases bind_eq_ok.mp read with ⟨length, -, read⟩
    rcases bind_eq_ok.mp read with ⟨freeSpeed, -, read⟩
    rcases bind_eq_ok.mp read with ⟨capacity, -, read⟩
    rcases bind_eq_ok.mp read with ⟨lanes, -, read⟩
    exact wellFormed.addLink read

theorem readElement (wellFormed : network.WellFormed) {name : String}
    (read : network.readElement name attributes = .ok next) : next.WellFormed := by
  unfold Network.readElement at read
  split_ifs at read
  · exact wellFormed.readNode read
  · exact wellFormed.readLink read
  · cases read
    exact wellFormed

/-- Taking in a document keeps a network well-formed, element by element. -/
theorem readEvents (wellFormed : network.WellFormed) {events : List Markup.Event}
    (read : network.readEvents events = .ok next) : next.WellFormed := by
  induction events generalizing network with
  | nil => cases read
  | cons event rest ih =>
      cases event with
      | documentEnd =>
          cases read
          exact wellFormed
      | elementStart name attributes =>
          rcases bind_eq_ok.mp read with ⟨longer, element, read⟩
          exact ih (wellFormed.readElement element) read
      | elementEnd name => exact ih wellFormed read
      | characters text => exact ih wellFormed read
      | other => exact ih wellFormed read
      | malformed => cases read

theorem ofDocument {document : String} (read : ofDocument document = .ok next) :
    next.WellFormed :=
  WellFormed.empty.readEvents read

end WellFormed

/-! ## Changes one after another -/

omit [Scalar α] [Numeric α] in
theorem checkEnd_eq (network : Network α) (id : String) :
    checkEnd id network =
      if id ∈ network.positions then .ok () network else .error (.unknownNode id) network := by
  show (if network.positions.contains id then pure () else throw (.unknownNode id) :
    EStateM Error (Network α) Unit) network = _
  simp only [← Std.HashMap.mem_iff_contains]
  split_ifs <;> rfl

/-- A link is added in place as it is to a copy, and a refused one changes nothing. -/
theorem perform_addLink (network : Network α) (link : Link α) :
    (Edit.addLink link).perform network =
      match network.addLink link with
      | .ok next => .ok () next
      | .error error => .error error network := by
  show EStateM.bind (checkEnd link.origin) (fun _ => EStateM.bind (checkEnd link.destination)
    fun _ => modify fun network => { network with links := network.links.push link }) network = _
  rw [EStateM.bind, checkEnd_eq, addLink, unknownId?]
  by_cases origin : link.origin ∈ network.positions
  · rw [if_pos origin]
    dsimp only
    rw [EStateM.bind, checkEnd_eq]
    by_cases destination : link.destination ∈ network.positions
    · simp [origin, destination]
      rfl
    · simp [origin, destination]
  · simp [origin]

theorem after_addNode (network : Network α) (id : String) (place : Point α) :
    network.after (.addNode id place) = network.addNode id place :=
  rfl

theorem perform_read (document : String) :
    (Edit.read document : Edit α).perform = replaceBy (ofDocument document) :=
  rfl

theorem after_read (network : Network α) (document : String) :
    network.after (.read document) =
      match (ofDocument document : Except Error (Network α)) with
      | .ok next => next
      | .error _ => network := by
  rw [after, perform_read]
  cases (ofDocument document : Except Error (Network α)) <;> rfl

theorem after_addLink (network : Network α) (link : Link α) :
    network.after (.addLink link) =
      if link.origin ∈ network.positions ∧ link.destination ∈ network.positions then
        { network with links := network.links.push link }
      else network := by
  rw [after, perform_addLink]
  split_ifs with known
  · rw [addLink_eq_ok.mpr ⟨known, rfl⟩]
  · cases added : network.addLink link with
    | ok next => exact absurd (addLink_eq_ok.mp added).1 known
    | error error => rfl

/-- A change leaves a well-formed network, be it made or refused. -/
theorem WellFormed.after {network : Network α} (wellFormed : network.WellFormed)
    (edit : Edit α) : (network.after edit).WellFormed := by
  cases edit with
  | renew => exact WellFormed.empty
  | addNode id place => exact wellFormed.addNode id place
  | addLink link =>
      rw [after_addLink]
      split_ifs with known
      · exact wellFormed.addLink (addLink_eq_ok.mpr ⟨known, rfl⟩)
      · exact wellFormed
  | read document =>
      rw [after_read]
      cases read : (Network.ofDocument document : Except Error (Network α)) with
      | ok next => exact WellFormed.ofDocument read
      | error error => exact wellFormed
  | layGrid plan => exact grid_wellFormed plan
  | filterByMode mode => exact wellFormed.filterByMode mode
  | clean => exact WellFormed.clean network

theorem WellFormed.history {network : Network α} (wellFormed : network.WellFormed)
    (history : List (Edit α)) : (history.foldl Network.after network).WellFormed := by
  induction history generalizing network with
  | nil => exact wellFormed
  | cons edit history ih => exact ih (wellFormed.after edit)

/-- A link is refused for an end that no node is, and changes nothing then. -/
theorem WellFormed.of_perform_addLink_error {network left : Network α}
    (wellFormed : network.WellFormed) {link : Link α} {error : Error}
    (refused : (Edit.addLink link).perform network = .error error left) :
    left = network ∧ ∃ id ∈ [link.origin, link.destination],
      id ∉ network.nodeIds ∧ error = .unknownNode id := by
  rw [perform_addLink, Network.addLink] at refused
  cases unknown : network.unknownId? [link.origin, link.destination] with
  | none =>
      rw [unknown] at refused
      cases refused
  | some id =>
      rw [unknown] at refused
      cases refused
      have stranger := List.find?_some unknown
      rw [Bool.not_eq_true', Std.HashMap.contains_eq_false_iff_not_mem,
        wellFormed.mem_positions] at stranger
      exact ⟨rfl, id, List.mem_of_find?_eq_some unknown, stranger, rfl⟩

omit [Scalar α] [Numeric α] in
/-- In a graph of a well-formed network the number of a node is found by its id, and by no
other one. -/
theorem WellFormed.nodeIndex?_eq_some {network : Network α} (wellFormed : network.WellFormed)
    {graph : Graph α} (depicts : graph.Depicts network) {id : String} {index : Nat} :
    graph.nodeIndex? id = some index ↔ index < graph.size ∧ graph.nodeId index = id := by
  have node : graph.nodes[index]? = network.nodes[index]?.map (Graph.Node.ofNetwork · index) := by
    rw [← Array.getElem?_toList, depicts.nodes_eq]
    simp [Function.comp_def]
  rw [depicts.nodeIndex?_eq, wellFormed.filed, getElem?_nodeIds, Graph.nodeId, node]
  have size : graph.size = network.nodes.size := by
    rw [Graph.size, ← Array.length_toList, depicts.nodes_eq]
    simp
  rw [size]
  constructor
  · rintro ⟨original, found, rfl⟩
    rw [found]
    exact ⟨(Array.getElem?_eq_some_iff.mp found).1, rfl⟩
  · rintro ⟨inside, named⟩
    rw [Array.getElem?_eq_getElem inside] at named ⊢
    exact ⟨_, rfl, named⟩

/-- Whatever has been done to a network, its nodes have different ids, each id is filed
under the position of its node and nothing else is filed, and both ends of every link are
nodes.  A link that is refused changes nothing.  A graph can always be made of the network;
nodes and links have their positions as numbers there, and numbers are found by ids. -/
theorem edited_wellFormed (history : List (Edit α)) :
    let network := history.foldl after empty
    network.nodeIds.Nodup ∧
    (∀ (id : String) (position : Nat),
      network.positions[id]? = some position ↔ network.nodeIds[position]? = some id) ∧
    (∀ link ∈ network.links,
      link.origin ∈ network.nodeIds ∧ link.destination ∈ network.nodeIds) ∧
    (∀ (link : Link α) (error : Error) (left : Network α),
      (Edit.addLink link).perform network = .error error left →
        left = network ∧ ∃ id ∈ [link.origin, link.destination],
          id ∉ network.nodeIds ∧ error = .unknownNode id) ∧
    ∀ identity, ∃ graph, Graph.ofNetwork identity network = .ok graph ∧
      graph.Depicts network ∧
      (∀ (position : Nat) (node : Graph.Node α),
        graph.nodes[position]? = some node → node.index = position) ∧
      (∀ (position : Nat) (link : Graph.Link α),
        graph.links[position]? = some link → link.index = position) ∧
      ∀ id index, graph.nodeIndex? id = some index ↔
        index < graph.size ∧ graph.nodeId index = id := by
  intro network
  have wellFormed : network.WellFormed := WellFormed.empty.history history
  refine ⟨wellFormed.nodup_nodeIds, wellFormed.filed, wellFormed.ends_known,
    fun link error left => wellFormed.of_perform_addLink_error, fun identity => ?_⟩
  rcases wellFormed.exists_graph identity with ⟨graph, made⟩
  have depicts := wellFormed.depicts made
  have numbered := Graph.ofNetwork_wellFormed made
  exact ⟨graph, made, depicts, numbered.node_index, numbered.link_index,
    fun id index => wellFormed.nodeIndex?_eq_some depicts⟩

/-- A node that is moved, a link, and a link that is refused. -/
def sketch : List (Edit α) :=
  [.addNode "a" ⟨0, 0⟩, .addNode "b" ⟨0, 0⟩, .addNode "b" ⟨Scalar.ofNat 100, 0⟩,
    .addLink (.road "ab" "a" "b" (Scalar.ofNat 100) (Scalar.ofNat 10)),
    .addLink (.road "ad" "a" "d" (Scalar.ofNat 100) (Scalar.ofNat 10))]

/-- What is left of the sketch. -/
theorem foldl_sketch :
    (sketch : List (Edit α)).foldl after empty =
      { nodes := #[⟨"a", ⟨0, 0⟩⟩, ⟨"b", ⟨Scalar.ofNat 100, 0⟩⟩]
        links := #[.road "ab" "a" "b" (Scalar.ofNat 100) (Scalar.ofNat 10)]
        positions := (∅ : Std.HashMap String Nat).insert "a" 0 |>.insert "b" 1 } := by
  simp [sketch, after_addNode, after_addLink, addNode, empty, Link.road]

theorem edited_wellFormed_sketch :
    let network := (sketch : List (Edit Float)).foldl after empty
    let road : Link Float := .road "ad" "a" "d" (Scalar.ofNat 100) (Scalar.ofNat 10)
    network.nodeIds = ["a", "b"] ∧
      (∃ error left, (Edit.addLink road).perform network = .error error left ∧ left = network) ∧
      ∃ graph, Graph.ofNetwork 0 network = .ok graph ∧ graph.Depicts network := by
  intro network road
  rcases edited_wellFormed (sketch : List (Edit Float)) with ⟨-, -, -, refused, graphs⟩
  rcases graphs 0 with ⟨graph, made, depicts, -⟩
  have performed : (Edit.addLink road).perform network = .error (.unknownNode "d") network := by
    simp [network, foldl_sketch, perform_addLink, addLink, unknownId?, road, Link.road]
  refine ⟨?_, ⟨_, network, performed, (refused road _ _ performed).1⟩, graph, made, depicts⟩
  simp [network, foldl_sketch, nodeIds]

end JourneyTimes.Network
