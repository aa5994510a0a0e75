import JourneyTimes.Proofs.Search.Frontier
import JourneyTimes.Proofs.Search.Labels
import JourneyTimes.Proofs.Search.Step

/-!
# Relaxing the links of a node

Relaxing a link offers its destination a label, which takes the place of the
known one if it costs less and the known one is not final.  The label of a node
after all links of another one have been relaxed is therefore the best of its
old label and what it was offered, the first of equally good ones.

The frontier keeps step: it holds the nodes that have been found and are
neither settled nor pruned, each once.
-/

namespace JourneyTimes.Search

variable {α : Type} [Scalar α]

/-- The label to keep of a known one and one found later. -/
def better (known found : Label α) : Label α :=
  if found.cost < known.cost then found else known

/-- Whether a link can be used at a label. -/
def Query.uses (query : Query α) (here : Label α) (link : Graph.Link α) : Bool :=
  query.cost.prices link && Scalar.isFinite (query.cost.travelTime link here.time)

/-- The label that a link offers its destination. -/
def Query.offer (query : Query α) (here : Label α) (link : Graph.Link α) : Label α :=
  extend query here link (query.cost.travelTime link here.time)

/-- The labels that some links offer a node, in the order of the links. -/
def Query.offers (query : Query α) (here : Label α) (links : List (Graph.Link α))
    (node : Nat) : List (Label α) :=
  (links.filter fun link => link.destination == node && query.uses here link).map
    (query.offer here)

/-! ## One link -/

/-- Everything that relaxing a link can do. -/
theorem relax_cases (query : Query α) (here : Label α) (state : State α)
    (link : Graph.Link α) :
    ((query.isFinal (state.labels.get link.destination) = true ∨
          query.uses here link = false ∨
          ¬ (query.offer here link).cost < (state.labels.get link.destination).cost) ∧
        ∃ stray, relax query here state link = { state with stray } ∧
          (query.cost.prices link = true → stray = state.stray)) ∨
      (query.isFinal (state.labels.get link.destination) = false ∧
        query.uses here link = true ∧
        (query.offer here link).cost < (state.labels.get link.destination).cost ∧
        relax query here state link =
          { state with
            labels := state.labels.improve link.destination (query.offer here link)
            frontier := state.frontier.push link.destination
              ((query.offer here link).cost + query.potential link.destination) }) := by
  unfold relax Query.uses Query.offer
  dsimp only
  split_ifs with final unpriced endless cheaper
  · exact .inl ⟨.inl final, state.stray, rfl, fun _ => rfl⟩
  · refine .inl ⟨.inr (.inl ?_), true, rfl, ?_⟩
    · simp_all
    · intro priced
      simp [priced] at unpriced
  · refine .inl ⟨.inr (.inl ?_), state.stray, rfl, fun _ => rfl⟩
    simp_all
  · refine .inr ⟨by simpa using final, ?_, cheaper, rfl⟩
    simp_all
  · exact .inl ⟨.inr (.inr cheaper), state.stray, rfl, fun _ => rfl⟩

theorem isFinal_offer (query : Query α) (here : Label α) (link : Graph.Link α) :
    query.isFinal (query.offer here link) = false := rfl

theorem isFinal_better {query : Query α} {known found : Label α}
    (knownOpen : query.isFinal known = false) (foundOpen : query.isFinal found = false) :
    query.isFinal (better known found) = false := by
  unfold better
  split
  · exact foundOpen
  · exact knownOpen

theorem valid_relax {query : Query α} {here : Label α} {state : State α}
    {link : Graph.Link α} {size : Nat} (valid : state.labels.Valid size) :
    (relax query here state link).labels.Valid size := by
  rcases relax_cases query here state link with ⟨-, stray, same, -⟩ | ⟨-, -, -, improved⟩
  · rw [same]
    exact valid
  · rw [improved]
    exact valid.improve _ _

/-- A label that is not final gives way to one that is offered in all its parts, for a node
that may be relabelled has not been pruned. -/
theorem get_improve_offer {query : Query α} {here : Label α} {labels : Labels α}
    {link : Graph.Link α} {size : Nat} (valid : labels.Valid size)
    (inside : link.destination < size)
    (isOpen : query.isFinal (labels.get link.destination) = false) (node : Nat) :
    (labels.improve link.destination (query.offer here link)).get node =
      if node = link.destination then query.offer here link else labels.get node := by
  have unpruned : (labels.get link.destination).pruned = false :=
    (Bool.or_eq_false_iff.mp isOpen).1
  rw [valid.get_improve inside, unpruned]
  rfl

theorem get_relax (query : Query α) (here : Label α) {state : State α}
    {link : Graph.Link α} {size : Nat} (valid : state.labels.Valid size)
    (inside : link.destination < size) (node : Nat) :
    (relax query here state link).labels.get node =
      if query.isFinal (state.labels.get node) then state.labels.get node
      else (query.offers here [link] node).foldl better (state.labels.get node) := by
  have offersEq : query.offers here [link] node =
      if link.destination = node ∧ query.uses here link = true then [query.offer here link]
      else [] := by
    unfold Query.offers
    rw [List.filter_cons, List.filter_nil]
    split <;> simp_all
  rw [offersEq]
  rcases relax_cases query here state link with
    ⟨useless, stray, same, -⟩ | ⟨isOpen, usable, cheaper, improved⟩
  · rw [same]
    split_ifs with final here <;> try rfl
    rcases here with ⟨rfl, usable⟩
    rcases useless with isFinal | unusable | dearer
    · exact absurd isFinal final
    · simp [usable] at unusable
    · simp [better, dearer]
  · rw [improved]
    dsimp only
    rw [get_improve_offer valid inside isOpen]
    by_cases same : node = link.destination
    · subst same
      simp [isOpen, usable, better, cheaper]
    · have apart : link.destination ≠ node := fun equal => same equal.symm
      simp [same, apart]

/-! ## All links of a node -/

theorem valid_foldl_relax {query : Query α} {here : Label α} {size : Nat}
    (links : List (Graph.Link α)) {state : State α} (valid : state.labels.Valid size) :
    (links.foldl (relax query here) state).labels.Valid size := by
  induction links generalizing state with
  | nil => exact valid
  | cons link links ih => exact ih (valid_relax valid)

theorem offers_cons (query : Query α) (here : Label α) (link : Graph.Link α)
    (links : List (Graph.Link α)) (node : Nat) :
    query.offers here (link :: links) node =
      query.offers here [link] node ++ query.offers here links node := by
  simp only [Query.offers, ← List.map_append, ← List.filter_append, List.singleton_append]

theorem mem_offers {query : Query α} {here found : Label α} {links : List (Graph.Link α)}
    {node : Nat} :
    found ∈ query.offers here links node ↔
      ∃ link ∈ links, link.destination = node ∧ query.uses here link = true ∧
        query.offer here link = found := by
  simp [Query.offers, and_assoc]

theorem isFinal_foldl_better {query : Query α} (here : Label α) {known : Label α}
    (links : List (Graph.Link α)) (node : Nat) (isOpen : query.isFinal known = false) :
    query.isFinal ((query.offers here links node).foldl better known) = false := by
  have keep (offers : List (Label α))
      (each : ∀ found ∈ offers, query.isFinal found = false) {known : Label α}
      (isOpen : query.isFinal known = false) :
      query.isFinal (offers.foldl better known) = false := by
    induction offers generalizing known with
    | nil => exact isOpen
    | cons found offers ih =>
        exact ih (fun other member => each other (List.mem_cons_of_mem _ member))
          (isFinal_better isOpen (each found (List.mem_cons_self ..)))
  refine keep _ ?_ isOpen
  intro found member
  rcases mem_offers.mp member with ⟨link, -, -, -, rfl⟩
  rfl

/-- A final label stays, and any other becomes the best of itself and what its
node is offered. -/
theorem get_foldl_relax (query : Query α) (here : Label α) {size : Nat}
    (links : List (Graph.Link α)) (inside : ∀ link ∈ links, link.destination < size)
    {state : State α} (valid : state.labels.Valid size) (node : Nat) :
    (links.foldl (relax query here) state).labels.get node =
      if query.isFinal (state.labels.get node) then state.labels.get node
      else (query.offers here links node).foldl better (state.labels.get node) := by
  induction links generalizing state with
  | nil => simp [Query.offers]
  | cons link links ih =>
      rw [List.foldl_cons,
        ih (fun other member => inside other (List.mem_cons_of_mem _ member))
          (valid_relax valid),
        get_relax query here valid (inside link (List.mem_cons_self ..)) node,
        offers_cons query here link links, List.foldl_append]
      cases final : query.isFinal (state.labels.get node) with
      | true => simp [final]
      | false =>
          have stillOpen := isFinal_foldl_better here [link] node final
          simp [stillOpen]

/-! ## The rest of a state -/

theorem foldl_relax_settled (query : Query α) (here : Label α)
    (links : List (Graph.Link α)) (state : State α) :
    (links.foldl (relax query here) state).settled = state.settled ∧
      (links.foldl (relax query here) state).awaited = state.awaited := by
  induction links generalizing state with
  | nil => exact ⟨rfl, rfl⟩
  | cons link links ih =>
      rcases ih (relax query here state link) with ⟨settled, awaited⟩
      rw [List.foldl_cons, settled, awaited]
      rcases relax_cases query here state link with ⟨-, stray, same, -⟩ | ⟨-, -, -, improved⟩
      · rw [same]
        exact ⟨rfl, rfl⟩
      · rw [improved]
        exact ⟨rfl, rfl⟩

/-- No stray link turns up where every link is priced. -/
theorem foldl_relax_stray {query : Query α} {here : Label α}
    {links : List (Graph.Link α)} (priced : ∀ link ∈ links, query.cost.prices link = true)
    (state : State α) :
    (links.foldl (relax query here) state).stray = state.stray := by
  induction links generalizing state with
  | nil => rfl
  | cons link links ih =>
      rw [List.foldl_cons, ih fun other member => priced other (List.mem_cons_of_mem _ member)]
      rcases relax_cases query here state link with
        ⟨-, stray, same, priced'⟩ | ⟨-, -, -, improved⟩
      · rw [same]
        exact priced' (priced link (List.mem_cons_self ..))
      · rw [improved]

/-! ## Keys -/

/-- What holds of every entry and of the cost of its node goes on to hold, if it holds of
what the links offer. -/
theorem entries_foldl_relax {query : Query α} {here : Label α} {size : Nat}
    (Holds : Frontier.Entry α → α → Prop) (links : List (Graph.Link α))
    (inside : ∀ link ∈ links, link.destination < size)
    (offered : ∀ link ∈ links, query.uses here link = true →
      Holds ⟨(query.offer here link).cost + query.potential link.destination, link.destination⟩
        (query.offer here link).cost)
    {state : State α} (valid : state.labels.Valid size)
    (each : ∀ entry ∈ state.frontier.entries, Holds entry (state.labels.get entry.node).cost) :
    ∀ entry ∈ (links.foldl (relax query here) state).frontier.entries,
      Holds entry ((links.foldl (relax query here) state).labels.get entry.node).cost := by
  induction links generalizing state with
  | nil => exact each
  | cons link links ih =>
      have target := inside link (List.mem_cons_self ..)
      refine ih (fun other member => inside other (List.mem_cons_of_mem _ member))
        (fun other member => offered other (List.mem_cons_of_mem _ member)) (valid_relax valid) ?_
      rcases relax_cases query here state link with
        ⟨-, stray, same, -⟩ | ⟨isOpen, usable, -, improved⟩
      · rw [same]
        exact each
      · rw [improved]
        intro entry member
        dsimp only at member ⊢
        rw [get_improve_offer valid target isOpen]
        rcases Frontier.mem_entries_push.mp member with rfl | ⟨old, apart⟩
        · rw [if_pos rfl]
          exact offered link (List.mem_cons_self ..) usable
        · rw [if_neg apart]
          exact each entry old

end JourneyTimes.Search
