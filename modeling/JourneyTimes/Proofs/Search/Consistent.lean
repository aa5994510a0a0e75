import JourneyTimes.Proofs.Search.Guided
import JourneyTimes.Proofs.Search.Rooted

/-!
# Searches with a consistent potential

A potential is consistent if along no link it falls by more than the link costs.
Then a search with a goal takes nodes out of its frontier in the order of their
keys, so a node that has been settled keeps its label: whatever is offered to it
later costs no less.

Landmarks are consistent only on some nodes, namely on those that matter because
the goal can be reached from them.  The others may be settled again and again, but
they offer nothing to the nodes that matter.  So the nodes that matter come out of
the frontier once, and the links that their labels name lead back to the source.
-/

namespace JourneyTimes.Search

/-! ## The nodes that come out of the frontier -/

section

variable {α : Type} [Scalar α] {query : Query α}

/-- The nodes that a search takes out of its frontier in a number of rounds, in their order. -/
def taken (query : Query α) : Nat → State α → List Nat
  | 0, _ => []
  | rounds + 1, state =>
    match state.frontier.pop? with
    | none => []
    | some (node, rest) =>
      if isBeyond query node state then node :: taken query rounds (prune node rest state)
      else if isOver query node (close query node rest state) then [node]
      else node :: taken query rounds (expand query node rest state)

section Invariant

variable (Holds Last : List Nat → State α → Prop)
  (stops : ∀ {record state}, Holds record state → Last record state)
  (prunes : ∀ {record state node rest}, Holds record state →
    state.frontier.pop? = some (node, rest) → isBeyond query node state = true →
    Holds (record ++ [node]) (prune node rest state))
  (expands : ∀ {record state node rest}, Holds record state →
    state.frontier.pop? = some (node, rest) → isBeyond query node state = false →
    isOver query node (close query node rest state) = false →
    Holds (record ++ [node]) (expand query node rest state))
  (arrives : ∀ {record state node rest}, Holds record state →
    state.frontier.pop? = some (node, rest) → isBeyond query node state = false →
    isOver query node (close query node rest state) = true →
    Last (record ++ [node]) (close query node rest state))

include stops prunes expands arrives

/-- What holds of a state and the nodes taken so far, and is kept while one more node
is taken, holds after any number of rounds, and when the search has come to its end. -/
theorem exists_last_taken (rounds : Nat) {record : List Nat} {state : State α}
    (holds : Holds record state) :
    ∃ last, Last (record ++ taken query rounds state) last ∧
      ∀ final, loopWithin query rounds state = some final → final.stray = false →
        last = final := by
  induction rounds generalizing record state with
  | zero =>
      rw [taken, List.append_nil]
      exact ⟨state, stops holds, nofun⟩
  | succ rounds ih =>
      rw [loopWithin, round, taken]
      cases popped : state.frontier.pop? with
      | none =>
          dsimp only
          rw [List.append_nil]
          exact ⟨state, stops holds, fun _ same _ => Option.some.inj same⟩
      | some pair =>
          rcases pair with ⟨node, rest⟩
          dsimp only
          split_ifs with beyond ended strayed
          · rw [List.append_cons]
            exact ih (prunes holds popped beyond)
          · exact ⟨_, arrives holds popped (Bool.eq_false_iff.mpr beyond) ended,
              fun _ same _ => Option.some.inj same⟩
          · rw [List.append_cons]
            rcases ih (expands holds popped (Bool.eq_false_iff.mpr beyond)
              (Bool.eq_false_iff.mpr ended)) with ⟨last, lasts, -⟩
            refine ⟨last, lasts, ?_⟩
            rintro _ ⟨⟩ onPath
            rw [strayed] at onPath
            cases onPath
          · rw [List.append_cons]
            exact ih (expands holds popped (Bool.eq_false_iff.mpr beyond)
              (Bool.eq_false_iff.mpr ended))

end Invariant

end

/-! ## Where labels come from -/

variable {K : Type} [Field K] [LinearOrder K] [FloorRing K] [Trigonometry K]

/-- A guided search whose potential is consistent on the nodes that matter.  A node
matters if a link leads from it to one that does, and can be used when it costs a number. -/
structure Query.IsConsistent (query : Query (Exact K)) (goal : Nat) (matters : Nat → Prop) :
    Prop extends query.IsGuided goal where
  goal_matters : matters goal
  origin_matters : ∀ link ∈ query.graph.links, matters link.destination → ∀ time : K,
    Scalar.isFinite (query.cost.travelTime link time) = true →
    Scalar.isFinite (query.cost.disutility link time) = true → matters link.origin
  potential_le : ∀ link ∈ query.graph.links, matters link.destination → ∀ time : K,
    Scalar.isFinite (query.cost.travelTime link time) = true →
    query.potential link.origin ≤
      query.cost.disutility link time + query.potential link.destination

/-- Of the nodes that matter those have been settled that have been taken, each once, and
their labels come from nodes that were taken before them. -/
structure Recorded (query : Query (Exact K)) (matters : Nat → Prop) (record : List Nat)
    (state : State (Exact K)) : Prop where
  mem_iff : ∀ node, matters node → (node ∈ record ↔ (state.labels.get node).settled = true)
  count_le : ∀ node, matters node → record.count node ≤ 1
  origin_arrival : (state.labels.get query.source).arrival = Arrival.departure query.start
  origin_via : (state.labels.get query.source).via = none
  comes : ∀ node, matters node → node ≠ query.source → IsFound query state node →
    ComesFrom query state.labels.get
      (fun origin => matters origin ∧ (state.labels.get origin).settled = true) node
  earlier : ∀ before node after, record = before ++ node :: after → matters node →
    node ≠ query.source →
      ComesFrom query state.labels.get (fun origin => matters origin ∧ origin ∈ before) node

/-- What holds between two steps of a search with a consistent potential: nodes that matter
and have been settled have keys no greater than those that wait. -/
structure Orderly (query : Query (Exact K)) (matters : Nat → Prop) (record : List Nat)
    (state : State (Exact K)) : Prop extends Guided query state, Recorded query matters record state
    where
  level : ∀ node other, matters node → (state.labels.get node).settled = true →
    matters other → IsWaiting query state other →
    (state.labels.get node).cost + query.potential node ≤
      (state.labels.get other).cost + query.potential other

variable {query : Query (Exact K)} {goal : Nat} {matters : Nat → Prop} {record : List Nat}
  {state : State (Exact K)}

namespace Recorded

protected theorem initial (guided : query.IsGuided goal) {scratch : Scratch (Exact K)}
    (blank : Blank query.graph.size scratch) :
    Recorded query matters [] (Search.initial query scratch) := by
  have get := get_initial blank guided.source_lt
  constructor
  case mem_iff =>
    intro node _
    rw [get]
    split_ifs <;> simp [Label.origin, Label.unknown]
  case count_le => simp
  case origin_arrival =>
    rw [get, if_pos rfl]
    rfl
  case origin_via =>
    rw [get, if_pos rfl]
    rfl
  case comes =>
    intro node _ apart found
    rw [IsFound, get, if_neg apart] at found
    rcases found with same | named
    · exact absurd same apart
    · cases named
  case earlier =>
    intro before node after split
    simp at split

/-- A node that waits has been taken no more than before it was found. -/
theorem not_mem_of_waits (recorded : Recorded query matters record state) {node : Nat}
    (isMattering : matters node) (waits : IsWaiting query state node) : node ∉ record := by
  intro member
  exact waits.not_settled ((recorded.mem_iff node isMattering).mp member)

protected theorem close (recorded : Recorded query matters record state)
    (guided : query.IsGuided goal) (sound : Sound query state) {node : Nat}
    {rest : Frontier (Exact K)} (popped : state.frontier.pop? = some (node, rest)) :
    Recorded query matters (record ++ [node]) (Search.close query node rest state) := by
  rcases sound.popped_found guided.wellFormed guided.source_lt popped with ⟨waits, nodeInside⟩
  have same : SameWays state (Search.close query node rest state) :=
    get_close_arrival query sound.valid nodeInside rest
  have settledIff := get_close_settled query sound.valid nodeInside rest
  constructor
  case mem_iff =>
    intro other isMattering
    rw [settledIff, List.mem_append, List.mem_singleton, recorded.mem_iff other isMattering,
      or_comm]
  case count_le =>
    intro other isMattering
    rw [List.count_append, List.count_singleton]
    split_ifs with isNode
    · rw [beq_iff_eq] at isNode
      subst isNode
      rw [List.count_eq_zero.mpr (recorded.not_mem_of_waits isMattering waits)]
    · exact recorded.count_le other isMattering
  case origin_arrival =>
    rw [(same query.source).1]
    exact recorded.origin_arrival
  case origin_via =>
    rw [(same query.source).2]
    exact recorded.origin_via
  case comes =>
    intro other isMattering apart found
    refine same.comesFrom ?_
      (recorded.comes other isMattering apart ((same.found_iff other).mp found))
    exact fun origin known => ⟨known.1, (settledIff origin).mpr (.inr known.2)⟩
  case earlier =>
    intro before other after split isMattering apart
    -- What the last node comes from was taken before it.
    rcases last_or_earlier split with ⟨rfl, rfl⟩ | ⟨init, old⟩
    · refine same.comesFrom ?_ (recorded.comes other isMattering apart waits.1)
      exact fun origin known => ⟨known.1, (recorded.mem_iff origin known.1).mpr known.2⟩
    · exact same.comesFrom (fun _ known => known)
        (recorded.earlier before other init old isMattering apart)

end Recorded

/-! ## Settled nodes keep their labels -/

variable [IsStrictOrderedRing K]

/-- A node that offers something to a node that matters matters itself, and its key is no
greater than the one it offers. -/
theorem Query.IsConsistent.key_le_offered (consistent : query.IsConsistent goal matters)
    (holds : Guided query state) {node other : Nat} (found : IsFound query state node)
    {label : Label (Exact K)}
    (offered : label ∈ query.offersFrom (state.labels.get node) node other)
    {bound : Exact K} (less : label.cost < bound) (isMattering : matters other) :
    matters node ∧ (state.labels.get node).cost + query.potential node ≤
      label.cost + query.potential other := by
  have nodeInside := lt_of_waits holds.toSound consistent.wellFormed consistent.source_lt found
  rcases (mem_offersFrom consistent.wellFormed nodeInside).mp offered with
    ⟨link, member, rfl, rfl, usable, rfl⟩
  rcases holds.cost_finite link.origin found with ⟨cost, -, costEq⟩
  rcases holds.time_finite consistent.toIsRegular found with ⟨time, timeEq⟩
  have price : (query.offer (state.labels.get link.origin) link).cost =
      cost + query.cost.disutility link time := by
    rw [Query.offer, extend, costEq, timeEq]
  have canEnter : Scalar.isFinite (query.cost.travelTime link time) = true := by
    rw [← timeEq]
    exact (Bool.and_eq_true_iff.mp usable).2
  have nonneg := consistent.nonneg link member time canEnter
  have priceNonneg := holds.offer_nonneg consistent.toIsRegular found member usable
  rcases Exact.finite_of_nonneg_of_lt priceNonneg less with ⟨total, -, totalEq⟩
  -- An infinite disutility would make the offer infinite.
  have finite : ∃ value : K, query.cost.disutility link time = value := by
    rcases Exact.nonneg_iff.mp nonneg with endless | ⟨value, -, valueEq⟩
    · rw [price, endless, Exact.finite_add_infinity] at totalEq
      cases totalEq
    · exact ⟨value, valueEq⟩
  rcases finite with ⟨value, valueEq⟩
  have falls := consistent.potential_le link member isMattering time canEnter
  rcases consistent.potential_finite link.origin with ⟨here, -, hereEq⟩
  rcases consistent.potential_finite link.destination with ⟨ahead, -, aheadEq⟩
  rw [hereEq, valueEq, aheadEq, Exact.finite_add_finite, Exact.finite_le_finite] at falls
  refine ⟨consistent.origin_matters link member isMattering time canEnter
    (by rw [valueEq]; rfl), ?_⟩
  rw [price, costEq, valueEq, hereEq, aheadEq, Exact.finite_add_finite, Exact.finite_add_finite,
    Exact.finite_add_finite, Exact.finite_le_finite]
  linarith

namespace Orderly

omit [IsStrictOrderedRing K] in
protected theorem initial (guided : query.IsGuided goal) {scratch : Scratch (Exact K)}
    (blank : Blank query.graph.size scratch) :
    Orderly query matters [] (Search.initial query scratch) where
  toGuided := .initial guided blank
  toRecorded := .initial guided blank
  level := by
    intro node _ _ settled
    rw [get_initial blank guided.source_lt] at settled
    split_ifs at settled <;> cases settled

variable (orderly : Orderly query matters record state)
  (consistent : query.IsConsistent goal matters) {node : Nat} {rest : Frontier (Exact K)}
  (popped : state.frontier.pop? = some (node, rest))

include orderly consistent popped

omit [IsStrictOrderedRing K] in
/-- Of the nodes that matter, those that are settled when a node has been taken have keys
no greater than that node, if it matters too. -/
theorem key_le_popped (nodeMatters : matters node) {other : Nat} (isMattering : matters other)
    (settled : ((Search.close query node rest state).labels.get other).settled = true) :
    (state.labels.get other).cost + query.potential other ≤
      (state.labels.get node).cost + query.potential node := by
  rcases orderly.popped_found consistent.wellFormed consistent.source_lt popped with
    ⟨waits, nodeInside⟩
  by_cases isNode : other = node
  · rw [isNode]
    exact orderly.popped_key_le consistent.toIsRegular popped waits
  · have old := ((get_close_settled query orderly.valid nodeInside rest other).mp
      settled).resolve_left isNode
    exact orderly.level other node isMattering old nodeMatters waits

/-- Nodes that matter keep their labels when they have been settled. -/
theorem expand_frozen {other : Nat} (isMattering : matters other)
    (settled : ((Search.close query node rest state).labels.get other).settled = true) :
    (Search.expand query node rest state).labels.get other =
      (Search.close query node rest state).labels.get other := by
  rcases orderly.popped_found consistent.wellFormed consistent.source_lt popped with
    ⟨waits, nodeInside⟩
  rcases orderly.expand_label_cases consistent.toIsRegular popped other with
    same | ⟨offered, less⟩
  · exact same
  · rcases consistent.key_le_offered orderly.toGuided waits.1 offered less isMattering with
      ⟨nodeMatters, keyLe⟩
    have known := orderly.key_le_popped consistent popped nodeMatters isMattering settled
    have found : IsFound query state other := by
      have closed := orderly.toSound.close consistent.wellFormed consistent.source_lt popped
      have isFound := closed.found_of_settled settled
      rwa [IsFound, (get_close_arrival query orderly.valid nodeInside rest other).2] at isFound
    rcases orderly.cost_finite other found with ⟨cost, -, costEq⟩
    rcases consistent.potential_finite other with ⟨bound, -, boundEq⟩
    have nonneg := orderly.offersFrom_nonneg consistent.toIsRegular waits.1 other _ offered
    rcases Exact.finite_of_nonneg_of_lt nonneg less with ⟨total, -, totalEq⟩
    have atMost := Exact.le_trans known keyLe
    rw [totalEq, costEq, Exact.finite_lt_finite] at less
    rw [totalEq, costEq, boundEq, Exact.finite_add_finite, Exact.finite_add_finite,
      Exact.finite_le_finite] at atMost
    linarith

/-- Relaxing links settles no node that matters. -/
theorem settled_expand {other : Nat} (isMattering : matters other) :
    ((Search.expand query node rest state).labels.get other).settled = true ↔
      ((Search.close query node rest state).labels.get other).settled = true := by
  have nodeInside :=
    (orderly.popped_found consistent.wellFormed consistent.source_lt popped).2
  constructor
  · intro settled
    rcases get_expand_cases consistent.wellFormed orderly.valid nodeInside rest other with
      same | ⟨-, offered⟩
    · rwa [same] at settled
    · rcases (mem_offersFrom consistent.wellFormed nodeInside).mp offered with
        ⟨link, -, -, -, -, offer⟩
      rw [← offer] at settled
      cases settled
  · intro settled
    rw [orderly.expand_frozen consistent popped isMattering settled]
    exact settled

/-- The source keeps its label too: nothing costs less than nothing. -/
theorem source_expand :
    (Search.expand query node rest state).labels.get query.source =
      (Search.close query node rest state).labels.get query.source := by
  rcases orderly.popped_found consistent.wellFormed consistent.source_lt popped with ⟨waits, -⟩
  rcases orderly.expand_label_cases consistent.toIsRegular popped query.source with
    same | ⟨offered, less⟩
  · exact same
  · have nonneg := orderly.offersFrom_nonneg consistent.toIsRegular waits.1 _ _ offered
    exact absurd less
      (Exact.not_lt_of_le (Exact.le_trans orderly.source_cost nonneg))

theorem recorded_expand :
    Recorded query matters (record ++ [node]) (Search.expand query node rest state) := by
  rcases orderly.popped_found consistent.wellFormed consistent.source_lt popped with
    ⟨waits, nodeInside⟩
  have closed := orderly.toRecorded.close consistent.toIsGuided orderly.toSound popped
  have still (other : Nat) (known : matters other ∧
      ((Search.close query node rest state).labels.get other).settled = true) :=
    orderly.expand_frozen consistent popped known.1 known.2
  have settledIff (other : Nat) (isMattering : matters other) :=
    orderly.settled_expand consistent popped isMattering
  have source := orderly.source_expand consistent popped
  constructor
  case mem_iff =>
    intro other isMattering
    rw [settledIff other isMattering]
    exact closed.mem_iff other isMattering
  case count_le => exact closed.count_le
  case origin_arrival =>
    rw [source]
    exact closed.origin_arrival
  case origin_via =>
    rw [source]
    exact closed.origin_via
  case comes =>
    intro other isMattering apart found
    have settled := (get_close_settled query orderly.valid nodeInside rest node).mpr (.inl rfl)
    refine (comesFrom_expand consistent.wellFormed orderly.valid nodeInside still ?_
      (closed.comes other isMattering apart) found).mono
        fun origin known => ⟨known.1, (settledIff origin known.1).mpr known.2⟩
    rcases orderly.expand_label_cases consistent.toIsRegular popped other with
      same | ⟨offered, less⟩
    · exact .inl same
    · rcases consistent.key_le_offered orderly.toGuided waits.1 offered less isMattering with
        ⟨nodeMatters, -⟩
      exact .inr ⟨offered, nodeMatters, settled⟩
  case earlier =>
    intro before other after split isMattering apart
    have same (origin : Nat) (isOrigin : matters origin)
        (known : origin ∈ before ++ other :: after) :=
      still origin ⟨isOrigin, (closed.mem_iff origin isOrigin).mp (split ▸ known)⟩
    exact (closed.earlier before other after split isMattering apart).of_eq
      (fun origin known => same origin known.1 (List.mem_append_left _ known.2))
      (same other isMattering (by simp))

protected theorem expand :
    Orderly query matters (record ++ [node]) (Search.expand query node rest state) where
  toGuided := orderly.toGuided.expand consistent.toIsGuided popped
  toRecorded := orderly.recorded_expand consistent popped
  level := by
    rcases orderly.popped_found consistent.wellFormed consistent.source_lt popped with
      ⟨waits, nodeInside⟩
    intro first other firstMatters settled otherMatters otherWaits
    have closed := (orderly.settled_expand consistent popped firstMatters).mp settled
    rw [orderly.expand_frozen consistent popped firstMatters closed,
      orderly.get_close_cost consistent.toIsRegular popped]
    rcases orderly.expand_label_cases consistent.toIsRegular popped other with
      same | ⟨offered, less⟩
    · -- The other node waited before.
      have apart : other ≠ node := by
        rintro rfl
        apply otherWaits.not_settled
        rw [same]
        exact (get_close_settled query orderly.valid nodeInside rest other).mpr (.inl rfl)
      rw [same, orderly.get_close_cost consistent.toIsRegular popped]
      rw [IsWaiting, IsFound, same, get_close query orderly.valid nodeInside,
        if_neg apart] at otherWaits
      rcases (get_close_settled query orderly.valid nodeInside rest first).mp closed with
        isNode | old
      · rw [isNode]
        exact orderly.popped_key_le consistent.toIsRegular popped otherWaits
      · exact orderly.level first other firstMatters old otherMatters otherWaits
    · rcases consistent.key_le_offered orderly.toGuided waits.1 offered less otherMatters with
        ⟨nodeMatters, keyLe⟩
      exact Exact.le_trans (orderly.key_le_popped consistent popped nodeMatters firstMatters closed)
        keyLe

end Orderly

/-- However many rounds a search with a consistent potential has taken, it has taken nodes that
matter once, and their labels come from nodes that it took before; and so it is when the search
has come to its end. -/
theorem exists_recorded (consistent : query.IsConsistent goal matters)
    {scratch : Scratch (Exact K)} (blank : Blank query.graph.size scratch) (rounds : Nat) :
    ∃ last, (Sound query last ∧ (∀ node, (last.labels.get node).pruned = false) ∧
        Recorded query matters (taken query rounds (initial query scratch)) last) ∧
      ∀ final, loopWithin query rounds (initial query scratch) = some final →
        final.stray = false → last = final := by
  refine exists_last_taken (Orderly query matters) (fun record state => Sound query state ∧
    (∀ node, (state.labels.get node).pruned = false) ∧ Recorded query matters record state)
    ?_ ?_ ?_ ?_ rounds (.initial consistent.toIsGuided blank)
  · intro record state orderly
    exact ⟨orderly.toSound, orderly.unpruned, orderly.toRecorded⟩
  · intro record state node rest _ _ beyond
    rw [isBeyond, consistent.keepsAll] at beyond
    cases beyond
  · intro record state node rest orderly popped _ _
    exact orderly.expand consistent popped
  · intro record state node rest orderly popped _ _
    have nodeInside :=
      (orderly.popped_found consistent.wellFormed consistent.source_lt popped).2
    refine ⟨orderly.toSound.close consistent.wellFormed consistent.source_lt popped, ?_,
      orderly.toRecorded.close consistent.toIsGuided orderly.toSound popped⟩
    intro other
    rw [get_close_pruned query orderly.valid nodeInside]
    exact orderly.unpruned other

theorem run_recorded (consistent : query.IsConsistent goal matters)
    {scratch : Scratch (Exact K)} (blank : Blank query.graph.size scratch)
    {final : State (Exact K)} (ran : run query scratch = .ok final) :
    Sound query final ∧ (∀ node, (final.labels.get node).pruned = false) ∧
      ∃ record, Recorded query matters record final := by
  rcases run_eq_ok.mp ran with ⟨ended, onPath⟩
  rcases loop_eq_some_iff.mp ended with ⟨rounds, within⟩
  rcases exists_recorded consistent blank rounds with ⟨last, ⟨sound, unpruned, recorded⟩, isLast⟩
  obtain rfl := isLast final within onPath
  exact ⟨sound, unpruned, _, recorded⟩

end JourneyTimes.Search
