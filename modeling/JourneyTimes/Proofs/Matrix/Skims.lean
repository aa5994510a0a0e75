import JourneyTimes.Proofs.Matrix.Dense
import JourneyTimes.Proofs.Matrix.Sparse
import JourneyTimes.Proofs.Pool.Schedule
import JourneyTimes.Proofs.Search.Fresh

/-!
# Skims do not depend on their workers

The tasks of a skim are searches.  A path tree that has been used answers a search as
a fresh one does, so it does not matter which worker takes a task.  Every task writes
a row, or a slot, of its own, so it does not matter either which task finishes first.
What comes of a skim is what its tasks leave one after another, each of them on a
fresh path tree.
-/

namespace JourneyTimes.MatrixBuilder

variable {α : Type} [Scalar α] {builder : MatrixBuilder α}

/-! ## Tasks do not depend on their workers -/

omit [Scalar α] in
theorem ask_fst {ω : Type} (query : PathTree α → Except Error (PathTree α))
    (answer : PathTree α → Except Error ω) (tree : PathTree α) :
    (ask query answer tree).1 = query tree >>= answer := by
  rw [ask]
  cases query tree <;> rfl

/-- A path tree that was asked for ways from a node has been used. -/
theorem used_ask {ω : Type} {source : Nat} {departure : α} {bounds : SearchBounds α}
    (answer : PathTree α → Except Error ω) {tree : PathTree α}
    (used : PathTree.Used builder.graph builder.cost builder.landmarks tree) :
    PathTree.Used builder.graph builder.cost builder.landmarks
      (ask (·.calculate source departure bounds) answer tree).2 := by
  rw [ask]
  cases done : tree.calculate source departure bounds with
  | error error => exact used
  | ok answered => exact used.calculate done

theorem rowJob_work {ζ : Type} [BEq ζ] [Hashable ζ] [ZoneName ζ] (graph : Graph α)
    (nodes : List Nat) (departure : α) (item : ζ × Nat) (tree : PathTree α) :
    ((rowJob graph nodes departure : Job _ (ζ × Nat) _ (Matrix ζ α)).work item tree).1 =
      tree.calculate item.2 departure .unbounded >>= fun answered =>
        nodes.mapM (timeTo graph item.2 departure answered) :=
  ask_fst ..

theorem rowJob_isUniform {ζ : Type} [BEq ζ] [Hashable ζ] [ZoneName ζ] (builder : MatrixBuilder α)
    (nodes : List Nat) (departure : α) :
    (rowJob builder.graph nodes departure : Job _ (ζ × Nat) _ (Matrix ζ α)).IsUniform
      (PathTree.Used builder.graph builder.cost builder.landmarks) builder.tree where
  found_eq := by
    intro item tree used
    rw [rowJob_work, rowJob_work]
    refine used.calculate_bind builder.used_tree (fun alike => ?_) item.2 departure .unbounded
    congr 1
    funext destination
    rw [timeTo, timeTo, alike.time?_eq]
  left_fit used := used_ask _ used

theorem neighbourhoodJob_isUniform (builder : MatrixBuilder α) (maxDistance departure : α) :
    (neighbourhoodJob maxDistance departure).IsUniform
      (PathTree.Used builder.graph builder.cost builder.landmarks) builder.tree where
  found_eq := by
    intro source tree used
    rw [neighbourhoodJob]
    dsimp only
    rw [ask_fst, ask_fst]
    refine used.calculate_bind builder.used_tree (fun alike => ?_) source departure
      (.maxDistance maxDistance)
    rw [reachedTimes, reachedTimes, alike.reached_eq]
    congr 2
    funext node
    rw [alike.time?_eq]
  left_fit used := used_ask _ used

theorem journeyJob_work (journey : Journey) (departure : α) (tree : PathTree α) :
    ((journeyJob departure).work journey tree).1 =
      tree.calculatePath journey.origin journey.destination departure >>= fun found =>
        .ok (found.1.map (·.travelTime)) := by
  rw [journeyJob]
  dsimp only
  cases tree.calculatePath journey.origin journey.destination departure <;> rfl

theorem journeyJob_isUniform (builder : MatrixBuilder α) (departure : α) :
    (journeyJob departure).IsUniform
      (PathTree.Used builder.graph builder.cost builder.landmarks) builder.tree where
  found_eq := by
    intro journey tree used
    rw [journeyJob_work, journeyJob_work]
    exact used.calculatePath_bind builder.used_tree
      (fun path => .ok (path.map (·.travelTime))) journey.origin journey.destination departure
  left_fit := by
    intro journey tree used
    rw [journeyJob]
    dsimp only
    cases done : tree.calculatePath journey.origin journey.destination departure with
    | error error => exact used
    | ok found => exact used.calculatePath done

/-! ## Tasks write apart -/

section Dense

variable {ζ : Type} [BEq ζ] [Hashable ζ] [ZoneName ζ]

omit [BEq ζ] [Hashable ζ] in
theorem sortZones_perm (central : List (ζ × Nat)) : (sortZones central).Perm central :=
  List.mergeSort_perm ..

theorem rowJob_writesApart (builder : MatrixBuilder α) (nodes : List Nat) (departure : α)
    {zones : List (ζ × Nat)} (nodup : (zones.map Prod.fst).Nodup) :
    (rowJob builder.graph nodes departure : Job _ (ζ × Nat) _ (Matrix ζ α)).WritesApart
      builder.tree zones (Matrix.IsOver (zones.map Prod.fst)) Prod.fst where
  nodup := nodup
  keeps := by
    intro item matrix next isOver written
    rcases bind_eq_ok.mp written with ⟨row, -, recorded⟩
    exact isOver.setRow recorded
  swap := by
    intro first second matrix next last different isOver firstWritten secondWritten
    rcases bind_eq_ok.mp firstWritten with ⟨firstRow, firstFound, firstRecorded⟩
    rcases bind_eq_ok.mp secondWritten with ⟨secondRow, secondFound, secondRecorded⟩
    rcases isOver.setRow_comm different firstRecorded secondRecorded with
      ⟨other, secondFirst, firstSecond⟩
    rw [firstFound, secondFound]
    exact ⟨other, secondFirst, firstSecond⟩

end Dense

theorem neighbourhoodJob_writesApart (builder : MatrixBuilder α) (maxDistance departure : α) :
    (neighbourhoodJob maxDistance departure).WritesApart builder.tree
      (List.range builder.graph.size) (fun matrix => matrix.rows.size = builder.graph.size)
      id where
  nodup := by
    rw [List.map_id]
    exact List.nodup_range
  keeps := by
    intro source matrix next sized written
    rcases bind_eq_ok.mp written with ⟨row, -, recorded⟩
    rcases SparseMatrix.setRow_eq_ok.mp recorded with ⟨-, rfl⟩
    simpa using sized
  swap := by
    intro first second matrix next last different sized firstWritten secondWritten
    rcases bind_eq_ok.mp firstWritten with ⟨firstRow, firstFound, firstRecorded⟩
    rcases bind_eq_ok.mp secondWritten with ⟨secondRow, secondFound, secondRecorded⟩
    rcases SparseMatrix.setRow_eq_ok.mp firstRecorded with ⟨firstInside, rfl⟩
    rcases SparseMatrix.setRow_eq_ok.mp secondRecorded with ⟨secondInside, rfl⟩
    rw [Array.size_setIfInBounds] at secondInside
    rw [firstFound, secondFound]
    refine ⟨_, SparseMatrix.setRow_eq_ok.mpr ⟨secondInside, rfl⟩,
      SparseMatrix.setRow_eq_ok.mpr ⟨by simpa using firstInside, ?_⟩⟩
    exact congrArg SparseMatrix.mk (Array.setIfInBounds_comm _ _ different)

/-- The journeys between pairs of nodes, with a slot for each. -/
def journeys (pairs : List (Nat × Nat)) : List Journey :=
  pairs.zipIdx.map fun ((origin, destination), slot) => ⟨slot, origin, destination⟩

theorem mem_journeys {pairs : List (Nat × Nat)} {journey : Journey} :
    journey ∈ journeys pairs ↔
      pairs[journey.slot]? = some (journey.origin, journey.destination) := by
  rw [journeys, List.mem_map]
  constructor
  · rintro ⟨⟨⟨origin, destination⟩, slot⟩, member, rfl⟩
    exact List.mk_mem_zipIdx_iff_getElem?.mp member
  · intro found
    exact ⟨⟨(journey.origin, journey.destination), journey.slot⟩,
      List.mk_mem_zipIdx_iff_getElem?.mpr found, rfl⟩

theorem journeyJob_writesApart (builder : MatrixBuilder α) (pairs : List (Nat × Nat))
    (departure : α) :
    (journeyJob departure).WritesApart builder.tree (journeys pairs)
      (fun times => times.size = pairs.length) Journey.slot where
  nodup := by
    have slots : (journeys pairs).map Journey.slot = List.range pairs.length := by
      rw [journeys, List.map_map, List.range_eq_range']
      exact List.zipIdx_map_snd 0 pairs
    rw [slots]
    exact List.nodup_range
  keeps := by
    intro journey times next sized written
    rcases bind_eq_ok.mp written with ⟨time, -, recorded⟩
    cases recorded
    simpa using sized
  swap := by
    intro first second times next last different sized firstWritten secondWritten
    rcases bind_eq_ok.mp firstWritten with ⟨firstTime, firstFound, firstRecorded⟩
    rcases bind_eq_ok.mp secondWritten with ⟨secondTime, secondFound, secondRecorded⟩
    rw [firstFound, secondFound]
    cases firstRecorded
    cases secondRecorded
    refine ⟨_, rfl, ?_⟩
    exact congrArg Except.ok (Array.setIfInBounds_comm _ _ different).symm

/-! ## What the tasks leave -/

section Dense

variable {ζ : Type} [BEq ζ] [Hashable ζ] [ZoneName ζ] [LawfulBEq ζ]

/-- What becomes of a dense matrix does not depend on the workers.  There is one exactly
if the tasks leave it one after another, each on a fresh path tree, and it has for
every zone the row that a fresh path tree finds. -/
structure HasDenseSkim (builder : MatrixBuilder α) (pool : WorkerPool (PathTree α))
    (central : List (ζ × Nat)) (departure : α) : Prop where
  determined : (rowJob builder.graph ((sortZones central).map Prod.snd) departure).IsDetermined
    builder.tree pool (sortZones central)
    (Matrix.make ((sortZones central).map Prod.fst) : Matrix ζ α)
  eq_ok_iff : ∀ matrix : Matrix ζ α, builder.denseMatrix central departure = .ok matrix ↔
    (rowJob builder.graph ((sortZones central).map Prod.snd) departure).inOrder builder.tree
      (sortZones central) (Matrix.make ((sortZones central).map Prod.fst)) = .ok matrix
  rows : ∀ matrix : Matrix ζ α, builder.denseMatrix central departure = .ok matrix →
    matrix.zones.toList = (sortZones central).map Prod.fst ∧
    ∀ (position : Nat) (zone : ζ) (source : Nat),
      (sortZones central)[position]? = some (zone, source) → ∃ answered row,
        builder.tree.calculate source departure .unbounded = .ok answered ∧
        ((sortZones central).map Prod.snd).mapM (timeTo builder.graph source departure answered) =
          .ok row ∧
        matrix.rows[position]? = some (row.map Matrix.cellOf).toArray

omit [LawfulBEq ζ] in
/-- A row with one value for the node of every zone can be written. -/
theorem setRow_of_mapM {zones : List (ζ × Nat)} {zone : ζ × Nat} (member : zone ∈ zones)
    {matrix : Matrix ζ α} (isOver : matrix.IsOver (zones.map Prod.fst))
    {compute : Nat → Except Error α} {row : List α}
    (read : (zones.map Prod.snd).mapM compute = .ok row) :
    ∃ next, matrix.setRow zone.1 row = .ok next := by
  rcases List.mem_iff_getElem?.mp (List.mem_map_of_mem (f := Prod.fst) member) with
    ⟨position, found⟩
  have fits : row.length = (zones.map Prod.fst).length := by
    rw [← (forall₂_of_mapM_eq_ok read).length_eq, List.length_map, List.length_map]
  exact isOver.setRow_ok found fits

omit [LawfulBEq ζ] in
/-- A task whose search succeeds fails only if some time is missing. -/
theorem mapM_of_outcome_error {departure : α} {zones : List (ζ × Nat)} {item : ζ × Nat}
    (member : item ∈ zones) {matrix : Matrix ζ α} (isOver : matrix.IsOver (zones.map Prod.fst))
    {answered : PathTree α}
    (calculated : builder.tree.calculate item.2 departure .unbounded = .ok answered) {error : Error}
    (failed : Batch.outcome (rowJob builder.graph (zones.map Prod.snd) departure) item
      ((rowJob builder.graph (zones.map Prod.snd) departure : Job _ _ _ (Matrix ζ α)).work
        item builder.tree).1 matrix = .error error) :
    (zones.map Prod.snd).mapM (timeTo builder.graph item.2 departure answered) = .error error := by
  rw [rowJob_work, calculated, ok_bind] at failed
  cases read : (zones.map Prod.snd).mapM (timeTo builder.graph item.2 departure answered) with
  | ok row =>
      rcases setRow_of_mapM member isOver read with ⟨next, recorded⟩
      have unrecorded : matrix.setRow item.1 row = .error error := by
        rw [read] at failed
        exact failed
      rw [recorded] at unrecorded
      cases unrecorded
  | error _ =>
      rw [read] at failed
      cases failed
      rfl

/-- Every zone has the row that a fresh path tree finds for it. -/
theorem rowJob_inOrder {nodes : List Nat} {departure : α} {zones : List (ζ × Nat)}
    (nodup : (zones.map Prod.fst).Nodup) {matrix : Matrix ζ α}
    (finished : (rowJob builder.graph nodes departure).inOrder builder.tree zones
      (Matrix.make (zones.map Prod.fst)) = .ok matrix) :
    matrix.IsOver (zones.map Prod.fst) ∧ ∀ (position : Nat) (zone : ζ) (source : Nat),
      zones[position]? = some (zone, source) → ∃ answered row,
        builder.tree.calculate source departure .unbounded = .ok answered ∧
        nodes.mapM (timeTo builder.graph source departure answered) = .ok row ∧
        matrix.rows[position]? = some (row.map Matrix.cellOf).toArray := by
  have apart := rowJob_writesApart builder nodes departure nodup
  have begins : (Matrix.make (zones.map Prod.fst) : Matrix ζ α).IsOver (zones.map Prod.fst) :=
    Matrix.make_isOver nodup
  have isOver := apart.keeps_inOrder begins finished
  have slots : ∀ item ∈ zones, ∃ row,
      ((rowJob builder.graph nodes departure : Job _ _ _ (Matrix ζ α)).work item builder.tree).1 =
        .ok row ∧ matrix.row? item.1 = some (row.map Matrix.cellOf).toArray :=
    apart.read_inOrder (fun matrix item => matrix.row? item.1)
      (fun row => (row.map Matrix.cellOf).toArray)
      (fun _ isOver recorded => isOver.row?_setRow_self recorded)
      (fun _ different isOver recorded => isOver.row?_setRow_of_ne different recorded)
      begins finished
  refine ⟨isOver, ?_⟩
  intro position zone source found
  rcases slots _ (List.mem_of_getElem? found) with ⟨row, worked, written⟩
  have filed : (zones.map Prod.fst)[position]? = some zone := by
    rw [List.getElem?_map, found]
    rfl
  rw [isOver.row?_eq filed] at written
  rw [rowJob_work] at worked
  rcases bind_eq_ok.mp worked with ⟨answered, calculated, read⟩
  exact ⟨answered, row, calculated, read, written⟩

/-- The cell of two zones holds the time that a fresh path tree finds from the one to the
other. -/
theorem rowJob_inOrder_cell {departure : α} {zones : List (ζ × Nat)}
    (nodup : (zones.map Prod.fst).Nodup) {matrix : Matrix ζ α}
    (finished : (rowJob builder.graph (zones.map Prod.snd) departure).inOrder builder.tree zones
      (Matrix.make (zones.map Prod.fst)) = .ok matrix) {origin destination : ζ × Nat}
    (originMember : origin ∈ zones) (destinationMember : destination ∈ zones) :
    ∃ answered time, builder.tree.calculate origin.2 departure .unbounded = .ok answered ∧
      timeTo builder.graph origin.2 departure answered destination.2 = .ok time ∧
      matrix.get? origin.1 destination.1 = Matrix.cellOf time := by
  have named {κ : Type} (key : ζ × Nat → κ) (position : Nat) (zone : ζ × Nat)
      (found : zones[position]? = some zone) : (zones.map key)[position]? = some (key zone) := by
    rw [List.getElem?_map, found]
    rfl
  rcases List.mem_iff_getElem?.mp originMember with ⟨row, originFound⟩
  rcases List.mem_iff_getElem?.mp destinationMember with ⟨column, destinationFound⟩
  rcases rowJob_inOrder nodup finished with ⟨isOver, rows⟩
  rcases rows row origin.1 origin.2 originFound with ⟨answered, times, calculated, read, written⟩
  rcases getElem?_of_mapM_eq_ok read (named Prod.snd column destination destinationFound) with
    ⟨time, timed, timeFound⟩
  refine ⟨answered, time, calculated, timed, ?_⟩
  rw [isOver.get?_eq (named Prod.fst row origin originFound)
    (named Prod.fst column destination destinationFound), Matrix.cell?, written]
  simp [timeFound]

omit [LawfulBEq ζ] in
theorem denseMatrix_eq_submit {pool : WorkerPool (PathTree α)}
    (started : builder.startPool = .ok pool) {central : List (ζ × Nat)}
    (checked : ((sortZones central).map (·.2)).forM builder.graph.checkNode = .ok ())
    (departure : α) : (builder.denseMatrix central departure : Except Error (Matrix ζ α)) =
      (pool.submit (rowJob builder.graph ((sortZones central).map Prod.snd) departure)
        (sortZones central) (Matrix.make ((sortZones central).map Prod.fst))).1 := by
  rw [denseMatrix, checked, ok_bind, started]
  rfl

theorem hasDenseSkim {pool : WorkerPool (PathTree α)} (started : builder.startPool = .ok pool)
    (idle : pool.Idle (PathTree.Used builder.graph builder.cost builder.landmarks))
    {central : List (ζ × Nat)} (nodup : (central.map Prod.fst).Nodup) (departure : α) :
    builder.HasDenseSkim pool central departure := by
  have sortedNodup : ((sortZones central).map Prod.fst).Nodup :=
    ((sortZones_perm central).map Prod.fst).nodup_iff.mpr nodup
  have determined := (rowJob_isUniform builder ((sortZones central).map Prod.snd)
    departure).isDetermined (rowJob_writesApart builder _ departure sortedNodup) idle
    (Matrix.make_isOver sortedNodup)
  have eqOk (matrix : Matrix ζ α) : builder.denseMatrix central departure = .ok matrix ↔
      (rowJob builder.graph ((sortZones central).map Prod.snd) departure).inOrder builder.tree
        (sortZones central) (Matrix.make ((sortZones central).map Prod.fst)) = .ok matrix := by
    constructor
    · intro done
      rcases bind_eq_ok.mp done with ⟨_, checked, -⟩
      rwa [denseMatrix_eq_submit started checked, determined.submit_iff] at done
    · intro done
      rw [denseMatrix_eq_submit started, determined.submit_iff]
      · exact done
      · refine Graph.forM_checkNode ?_
        intro source member
        rcases List.mem_map.mp member with ⟨⟨zone, source⟩, zoneMember, rfl⟩
        rcases List.mem_iff_getElem?.mp zoneMember with ⟨position, found⟩
        rcases (rowJob_inOrder sortedNodup done).2 position zone source found with
          ⟨answered, row, calculated, -, -⟩
        rw [← builder.used_tree.ready.graph_eq]
        exact PathTree.lt_of_calculate calculated
  refine ⟨determined, eqOk, ?_⟩
  intro matrix done
  rcases rowJob_inOrder sortedNodup ((eqOk matrix).mp done) with ⟨isOver, rows⟩
  exact ⟨isOver.zones_eq, rows⟩

end Dense

/-- What becomes of a sparse matrix does not depend on the workers.  There is one exactly
if the tasks leave it one after another, each on a fresh path tree, and it has for
every node the row that a fresh path tree finds. -/
structure HasSparseSkim (builder : MatrixBuilder α) (pool : WorkerPool (PathTree α))
    (maxDistance departure : α) : Prop where
  determined : (neighbourhoodJob maxDistance departure).IsDetermined builder.tree pool
    (List.range builder.graph.size) (SparseMatrix.make builder.graph.size)
  eq_ok_iff : ∀ matrix, builder.sparseMatrix maxDistance departure = .ok matrix ↔
    (neighbourhoodJob maxDistance departure).inOrder builder.tree
      (List.range builder.graph.size) (SparseMatrix.make builder.graph.size) = .ok matrix
  rows : ∀ matrix, builder.sparseMatrix maxDistance departure = .ok matrix →
    matrix.rows.size = builder.graph.size ∧ ∀ source < builder.graph.size, ∃ answered,
      builder.tree.calculate source departure (.maxDistance maxDistance) = .ok answered ∧
      matrix.row? source = some (reachedTimes departure answered)

theorem hasSparseSkim {pool : WorkerPool (PathTree α)} (started : builder.startPool = .ok pool)
    (idle : pool.Idle (PathTree.Used builder.graph builder.cost builder.landmarks))
    (maxDistance departure : α) : builder.HasSparseSkim pool maxDistance departure := by
  have apart := neighbourhoodJob_writesApart builder maxDistance departure
  have begins : (SparseMatrix.make builder.graph.size : SparseMatrix α).rows.size =
      builder.graph.size := Array.size_replicate
  have determined :=
    (neighbourhoodJob_isUniform builder maxDistance departure).isDetermined apart idle begins
  have eqOk (matrix : SparseMatrix α) :
      builder.sparseMatrix maxDistance departure = .ok matrix ↔
        (neighbourhoodJob maxDistance departure).inOrder builder.tree
          (List.range builder.graph.size) (SparseMatrix.make builder.graph.size) = .ok matrix := by
    rw [← determined.submit_iff, sparseMatrix, started, ok_bind]
  refine ⟨determined, eqOk, ?_⟩
  intro matrix done
  have finished := (eqOk matrix).mp done
  refine ⟨apart.keeps_inOrder begins finished, ?_⟩
  intro source inside
  have slots := apart.read_inOrder SparseMatrix.row? id ?_ ?_ begins finished source
    (List.mem_range.mpr inside)
  · rcases slots with ⟨row, worked, written⟩
    rw [neighbourhoodJob] at worked
    dsimp only at worked
    rw [ask_fst] at worked
    rcases bind_eq_ok.mp worked with ⟨answered, calculated, read⟩
    cases read
    exact ⟨answered, calculated, written⟩
  · intro other row matrix next _ _ recorded
    rcases SparseMatrix.setRow_eq_ok.mp recorded with ⟨otherInside, rfl⟩
    rw [SparseMatrix.row?, Array.getElem?_setIfInBounds_self_of_lt otherInside]
    rfl
  · intro other asked row matrix next _ different _ recorded
    rcases SparseMatrix.setRow_eq_ok.mp recorded with ⟨-, rfl⟩
    have apartNodes : other ≠ asked := Ne.symm different
    rw [SparseMatrix.row?, SparseMatrix.row?, Array.getElem?_setIfInBounds_ne apartNodes]

/-- What becomes of the times of journeys does not depend on the workers.  There are some
exactly if the tasks leave them one after another, each on a fresh path tree, and
every pair has in its own place the time of the path that a fresh path tree finds. -/
structure HasJourneySkim (builder : MatrixBuilder α) (pool : WorkerPool (PathTree α))
    (pairs : List (Nat × Nat)) (departure : α) : Prop where
  determined : (journeyJob departure).IsDetermined builder.tree pool (journeys pairs)
    (Array.replicate pairs.length none)
  eq_ok_iff : ∀ times, builder.journeyTimes pairs departure = .ok times ↔
    (journeyJob departure).inOrder builder.tree (journeys pairs)
      (Array.replicate pairs.length none) = .ok times.toArray
  times : ∀ times, builder.journeyTimes pairs departure = .ok times →
    times.length = pairs.length ∧ ∀ (slot origin destination : Nat),
      pairs[slot]? = some (origin, destination) → ∃ path answered,
        builder.tree.calculatePath origin destination departure = .ok (path, answered) ∧
        times[slot]? = some (path.map (·.travelTime))

theorem hasJourneySkim {pool : WorkerPool (PathTree α)} (started : builder.startPool = .ok pool)
    (idle : pool.Idle (PathTree.Used builder.graph builder.cost builder.landmarks))
    (pairs : List (Nat × Nat)) (departure : α) :
    builder.HasJourneySkim pool pairs departure := by
  have apart := journeyJob_writesApart builder pairs departure
  have begins : (Array.replicate pairs.length (none : Option α)).size = pairs.length :=
    Array.size_replicate
  have determined := (journeyJob_isUniform builder departure).isDetermined apart idle begins
  have eqOk (times : List (Option α)) : builder.journeyTimes pairs departure = .ok times ↔
      (journeyJob departure).inOrder builder.tree (journeys pairs)
        (Array.replicate pairs.length none) = .ok times.toArray := by
    rw [← determined.submit_iff, journeyTimes, started, ok_bind]
    change ((pool.submit (journeyJob departure) (journeys pairs)
      (Array.replicate pairs.length none)).1 >>= fun found => .ok found.toList) = .ok times ↔ _
    cases (pool.submit (journeyJob departure) (journeys pairs)
      (Array.replicate pairs.length none)).1 with
    | error error => simp [bind, Except.bind]
    | ok found => simp [← Array.toList_inj]
  refine ⟨determined, eqOk, ?_⟩
  intro times done
  have finished := (eqOk times).mp done
  refine ⟨by simpa using apart.keeps_inOrder begins finished, ?_⟩
  intro slot origin destination found
  have member : (⟨slot, origin, destination⟩ : Journey) ∈ journeys pairs := mem_journeys.mpr found
  have slots := apart.read_inOrder (fun times journey => times[journey.slot]?) id ?_ ?_ begins
    finished _ member
  · rcases slots with ⟨time, worked, written⟩
    rw [journeyJob_work] at worked
    rcases bind_eq_ok.mp worked with ⟨⟨path, answered⟩, calculated, read⟩
    cases read
    exact ⟨path, answered, calculated, by simpa using written⟩
  · intro other time times next member sized recorded
    cases recorded
    refine Array.getElem?_setIfInBounds_self_of_lt ?_
    rw [sized]
    exact (List.getElem?_eq_some_iff.mp (mem_journeys.mp member)).1
  · intro other asked time times next _ different _ recorded
    cases recorded
    exact Array.getElem?_setIfInBounds_ne (Ne.symm different)

/-- Skims do not depend on their workers, whichever of them takes a task and in whatever
order tasks start, finish and write. -/
theorem skims_determined {ζ : Type} [BEq ζ] [Hashable ζ] [ZoneName ζ] [LawfulBEq ζ]
    (builder : MatrixBuilder α) (staffed : 0 < builder.workers) (departure : α) :
    ∃ pool, builder.startPool = .ok pool ∧
      (∀ central : List (ζ × Nat), (central.map Prod.fst).Nodup →
        builder.HasDenseSkim pool central departure) ∧
      (∀ maxDistance, builder.HasSparseSkim pool maxDistance departure) ∧
      ∀ pairs, builder.HasJourneySkim pool pairs departure := by
  rcases startPool_idle staffed with ⟨pool, started, idle⟩
  exact ⟨pool, started, fun _ nodup => hasDenseSkim started idle nodup departure,
    fun maxDistance => hasSparseSkim started idle maxDistance departure,
    fun pairs => hasJourneySkim started idle pairs departure⟩

theorem skims_determined_triangle :
    ∃ pool, (make (Graph.triangle : Graph (Exact ℚ)) .freeSpeed 2).startPool = .ok pool ∧
      (∀ central : List (String × Nat), (central.map Prod.fst).Nodup →
        (make Graph.triangle .freeSpeed 2).HasDenseSkim pool central (28800 : ℚ)) ∧
      (∀ maxDistance,
        (make Graph.triangle .freeSpeed 2).HasSparseSkim pool maxDistance (28800 : ℚ)) ∧
      ∀ pairs, (make Graph.triangle .freeSpeed 2).HasJourneySkim pool pairs (28800 : ℚ) :=
  skims_determined _ Nat.zero_lt_two _

end JourneyTimes.MatrixBuilder
