import JourneyTimes.Proofs.Matrix.Skims
import JourneyTimes.Proofs.Search.Spread

/-!
# Dense matrices and connection

A dense matrix is to have a time between any two zones.  There is one exactly if the
central nodes of zones reach each other along links that can be used, and then every
cell has its time.  Otherwise a task fails, and its error names a pair of central nodes
that is not connected: of the nodes that the origin does not reach, the first one in the
order of the zones.
-/

namespace JourneyTimes

variable {ζ : Type} [ZoneName ζ]

/-- The order of zones is transitive and total. -/
structure ZoneName.IsOrdered (ζ : Type) [ZoneName ζ] : Prop where
  trans : ∀ first second third : ζ, atMost first second = true → atMost second third = true →
    atMost first third = true
  total : ∀ left right : ζ, (atMost left right || atMost right left) = true

theorem ZoneName.string_isOrdered : ZoneName.IsOrdered String where
  trans first second third := by
    simp only [atMost, Bool.not_eq_true', decide_eq_false_iff_not]
    exact fun upto onwards => String.le_trans upto onwards
  total left right := by
    simp only [atMost, Bool.or_eq_true, Bool.not_eq_true', decide_eq_false_iff_not]
    exact String.le_total left right

/-- Zones with their central nodes, in the order of the zones. -/
structure IsSorting (central sorted : List (ζ × Nat)) : Prop where
  perm : sorted.Perm central
  pairwise : sorted.Pairwise fun left right => ZoneName.atMost left.1 right.1 = true

theorem MatrixBuilder.sortZones_isSorting (ordered : ZoneName.IsOrdered ζ)
    (central : List (ζ × Nat)) : IsSorting central (sortZones central) where
  perm := sortZones_perm central
  pairwise := List.pairwise_mergeSort
    (fun first second third => ordered.trans first.1 second.1 third.1)
    (fun left right => ordered.total left.1 right.1) central

variable {K : Type} [Field K] [LinearOrder K] [FloorRing K] [Trigonometry K]
  [BEq ζ] [Hashable ζ]

/-- Every cell of a matrix has a time, which is zero from a zone to itself. -/
structure Matrix.IsFilled (matrix : Matrix ζ (Exact K)) : Prop where
  isComplete : matrix.isComplete = true
  exists_get? : ∀ origin ∈ matrix.zones, ∀ destination ∈ matrix.zones, ∃ time : K,
    matrix.get? origin destination = some ↑time
  get?_self : ∀ zone ∈ matrix.zones, matrix.get? zone zone = some 0

namespace MatrixBuilder

/-- Central nodes reach each other along links that can be used. -/
def IsConnected (builder : MatrixBuilder (Exact K)) (central : List (ζ × Nat))
    (departure : Exact K) : Prop :=
  ∀ origin ∈ central, ∀ destination ∈ central,
    builder.cost.Connects builder.graph departure origin.2 destination.2

/-- The origin of an error is some central node, and its destination the first central
node that the origin does not reach. -/
def NamesGap (builder : MatrixBuilder (Exact K)) (central : List (ζ × Nat))
    (departure : Exact K) (error : Error) : Prop :=
  ∃ origin ∈ central, ∃ before destination after,
    IsSorting central (before ++ destination :: after) ∧
    (∀ earlier ∈ before, builder.cost.Connects builder.graph departure origin.2 earlier.2) ∧
    ¬ builder.cost.Connects builder.graph departure origin.2 destination.2 ∧
    error = .disconnected (builder.graph.nodeId origin.2) (builder.graph.nodeId destination.2)

/-- What comes of a dense matrix tells truthfully whether central nodes are connected. -/
structure TellsConnection (builder : MatrixBuilder (Exact K)) (central : List (ζ × Nat))
    (departure : Exact K) (result : Except Error (Matrix ζ (Exact K))) : Prop where
  ok_iff : (∃ matrix, result = .ok matrix) ↔ builder.IsConnected central departure
  zones : ∀ matrix, result = .ok matrix → ∃ sorted, IsSorting central sorted ∧
    matrix.zones.toList = sorted.map Prod.fst
  filled : ∀ matrix, result = .ok matrix → Scalar.isFinite departure = true → matrix.IsFilled
  error : ∀ error, result = .error error → builder.NamesGap central departure error

/-! ## Rows -/

/-- The times that a search from a source finds: one for every node that is connected
with it, and no time for any other. -/
structure FindsTimes (builder : MatrixBuilder (Exact K)) (departure : Exact K) (source : Nat)
    (answered : PathTree (Exact K)) : Prop where
  self : timeTo builder.graph source departure answered source = .ok (departure - departure)
  ok : ∀ node, builder.cost.Connects builder.graph departure source node →
    ∃ time, timeTo builder.graph source departure answered node = .ok time ∧
      (Scalar.isFinite departure = true → Scalar.isFinite time = true)
  error : ∀ node, ¬ builder.cost.Connects builder.graph departure source node →
    timeTo builder.graph source departure answered node =
      .error (.disconnected (builder.graph.nodeId source) (builder.graph.nodeId node))

theorem FindsTimes.connects_of_ok {builder : MatrixBuilder (Exact K)} {departure : Exact K}
    {source : Nat} {answered : PathTree (Exact K)}
    (finds : builder.FindsTimes departure source answered) {node : Nat} {time : Exact K}
    (found : timeTo builder.graph source departure answered node = .ok time) :
    builder.cost.Connects builder.graph departure source node := by
  by_contra unconnected
  rw [finds.error node unconnected] at found
  cases found

section

variable {builder : MatrixBuilder (Exact K)} {departure : Exact K}
  (wellFormed : builder.graph.WellFormed)
  (priced : ∀ link ∈ builder.graph.links, builder.cost.prices link = true)
  (fixed : builder.cost.HasFixedPassages builder.graph departure)

include wellFormed priced fixed

theorem calculate_findsTimes {source : Nat} (inside : source < builder.graph.size) :
    ∃ answered, builder.tree.calculate source departure .unbounded = .ok answered ∧
      builder.FindsTimes departure source answered := by
  rcases PathTree.calculate_connected wellFormed priced fixed builder.used_tree inside with
    ⟨answered, calculated, self, nodes⟩
  refine ⟨answered, calculated, ?_, ?_, ?_⟩
  · rw [timeTo, self]
  · intro node connected
    rcases Option.isSome_iff_exists.mp ((nodes node).1.mpr connected) with ⟨time, timed⟩
    refine ⟨time - departure, by rw [timeTo, timed], ?_⟩
    intro finite
    rcases Exact.isFinite_iff.mp finite with ⟨start, rfl⟩
    rcases Exact.isFinite_iff.mp ((nodes node).2 time timed finite) with ⟨value, rfl⟩
    rw [Exact.finite_sub_finite, Exact.isFinite_finite]
  · intro node unconnected
    have untimed : answered.time? node = none :=
      Option.not_isSome_iff_eq_none.mp (mt (nodes node).1.mp unconnected)
    rw [timeTo, untimed]

variable {zones : List (ζ × Nat)} (inside : ∀ zone ∈ zones, zone.2 < builder.graph.size)

include inside

/-- A task fails only if its source does not reach some central node, and then at the
first one. -/
theorem rowJob_outcome_error {item : ζ × Nat} (member : item ∈ zones) {matrix : Matrix ζ (Exact K)}
    (isOver : matrix.IsOver (zones.map Prod.fst)) {error : Error}
    (failed : Batch.outcome (rowJob builder.graph (zones.map Prod.snd) departure) item
      ((rowJob builder.graph (zones.map Prod.snd) departure : Job _ _ _ (Matrix ζ (Exact K))).work
        item builder.tree).1 matrix = .error error) :
    ∃ before destination after, zones = before ++ destination :: after ∧
      (∀ earlier ∈ before, builder.cost.Connects builder.graph departure item.2 earlier.2) ∧
      ¬ builder.cost.Connects builder.graph departure item.2 destination.2 ∧
      error =
        .disconnected (builder.graph.nodeId item.2) (builder.graph.nodeId destination.2) := by
  rcases calculate_findsTimes wellFormed priced fixed (inside item member) with
    ⟨answered, calculated, finds⟩
  have read := mapM_of_outcome_error member isOver calculated failed
  rcases exists_of_mapM_eq_error read with ⟨before, node, after, split, earlier, stopped⟩
  rcases List.map_eq_append_iff.mp split with ⟨first, rest, rfl, rfl, restEq⟩
  rcases List.map_eq_cons_iff.mp restEq with ⟨destination, last, rfl, rfl, rfl⟩
  have unconnected : ¬ builder.cost.Connects builder.graph departure item.2 destination.2 := by
    intro connected
    rcases finds.ok _ connected with ⟨time, found, -⟩
    rw [found] at stopped
    cases stopped
  rw [finds.error _ unconnected] at stopped
  cases stopped
  refine ⟨first, destination, last, rfl, ?_, unconnected, rfl⟩
  intro zone zoneMember
  rcases earlier zone.2 (List.mem_map_of_mem zoneMember) with ⟨time, found⟩
  exact finds.connects_of_ok found

variable [LawfulBEq ζ] (nodup : (zones.map Prod.fst).Nodup) {matrix : Matrix ζ (Exact K)}
  (finished : (rowJob builder.graph (zones.map Prod.snd) departure).inOrder builder.tree zones
    (Matrix.make (zones.map Prod.fst)) = .ok matrix)

include nodup finished

/-- The rows that are written hold the times that searches find. -/
theorem rowJob_inOrder_row {row : Nat} {origin : ζ × Nat} (found : zones[row]? = some origin) :
    ∃ answered cells, builder.FindsTimes departure origin.2 answered ∧
      matrix.rows[row]? = some cells ∧ cells.size = zones.length ∧
      ∀ (column : Nat) (destination : ζ × Nat), zones[column]? = some destination →
        ∃ time, timeTo builder.graph origin.2 departure answered destination.2 = .ok time ∧
          cells[column]? = some (Matrix.cellOf time) := by
  rcases calculate_findsTimes wellFormed priced fixed
    (inside origin (List.mem_of_getElem? found)) with ⟨answered, calculated, finds⟩
  rcases (rowJob_inOrder nodup finished).2 row origin.1 origin.2 found with
    ⟨searched, times, sameSearch, read, written⟩
  rw [calculated] at sameSearch
  cases sameSearch
  have fits : times.length = zones.length := by
    rw [← (forall₂_of_mapM_eq_ok read).length_eq, List.length_map]
  refine ⟨answered, _, finds, written, by simpa using fits, ?_⟩
  intro column destination destinationFound
  have node : (zones.map Prod.snd)[column]? = some destination.2 := by
    rw [List.getElem?_map, destinationFound]
    rfl
  rcases getElem?_of_mapM_eq_ok read node with ⟨time, timed, timeFound⟩
  exact ⟨time, timed, by simp [timeFound]⟩

/-- The cell of two zones holds the time that the search from the one finds for the
other. -/
theorem rowJob_inOrder_get? {origin destination : ζ × Nat} (originMember : origin ∈ zones)
    (destinationMember : destination ∈ zones) :
    ∃ answered time, builder.FindsTimes departure origin.2 answered ∧
      timeTo builder.graph origin.2 departure answered destination.2 = .ok time ∧
      matrix.get? origin.1 destination.1 = Matrix.cellOf time := by
  rcases calculate_findsTimes wellFormed priced fixed (inside origin originMember) with
    ⟨answered, calculated, finds⟩
  rcases rowJob_inOrder_cell nodup finished originMember destinationMember with
    ⟨searched, time, sameSearch, timed, cell⟩
  rw [calculated] at sameSearch
  cases sameSearch
  exact ⟨answered, time, finds, timed, cell⟩

/-- A matrix comes of central nodes that are connected. -/
theorem rowJob_inOrder_isConnected : builder.IsConnected zones departure := by
  intro origin originMember destination destinationMember
  rcases rowJob_inOrder_get? wellFormed priced fixed inside nodup finished originMember
    destinationMember with ⟨answered, time, finds, timed, -⟩
  exact finds.connects_of_ok timed

/-- From a zone to itself it takes no time, if that can be told. -/
theorem rowJob_inOrder_get?_self {zone : ζ × Nat} (member : zone ∈ zones) :
    matrix.get? zone.1 zone.1 = Matrix.cellOf (departure - departure) := by
  rcases rowJob_inOrder_get? wellFormed priced fixed inside nodup finished member member with
    ⟨answered, time, finds, timed, cell⟩
  rw [finds.self] at timed
  cases timed
  exact cell

/-- Whoever departs at a number of seconds finds a time in every cell. -/
theorem rowJob_inOrder_isFilled (finite : Scalar.isFinite departure = true) : matrix.IsFilled := by
  have isOver := (rowJob_inOrder nodup finished).1
  have numbered {source node : Nat} {answered : PathTree (Exact K)} {time : Exact K}
      (finds : builder.FindsTimes departure source answered)
      (timed : timeTo builder.graph source departure answered node = .ok time) :
      ∃ seconds : K, time = seconds := by
    rcases finds.ok node (finds.connects_of_ok timed) with ⟨other, otherTimed, number⟩
    rw [timed] at otherTimed
    cases otherTimed
    exact Exact.isFinite_iff.mp (number finite)
  have zoneOf (zone : ζ) (member : zone ∈ matrix.zones) : ∃ node, (zone, node) ∈ zones := by
    rw [← Array.mem_toList_iff, isOver.zones_eq] at member
    simpa using member
  refine ⟨isOver.isComplete ?_, ?_, ?_⟩
  · intro cells cellsMember
    rcases Array.mem_iff_getElem?.mp cellsMember with ⟨row, written⟩
    have rowInside : row < zones.length := by
      have bound := (Array.getElem?_eq_some_iff.mp written).1
      rwa [isOver.rows_size, List.length_map] at bound
    rcases rowJob_inOrder_row wellFormed priced fixed inside nodup finished
      (List.getElem?_eq_getElem rowInside) with ⟨answered, others, finds, sameRow, size, times⟩
    rw [written] at sameRow
    cases sameRow
    refine ⟨by rw [size, List.length_map], ?_⟩
    intro cell cellMember
    rcases Array.mem_iff_getElem?.mp cellMember with ⟨column, cellFound⟩
    have columnInside : column < zones.length :=
      size ▸ (Array.getElem?_eq_some_iff.mp cellFound).1
    rcases times column _ (List.getElem?_eq_getElem columnInside) with ⟨time, timed, cellEq⟩
    rw [cellFound] at cellEq
    cases cellEq
    rcases numbered finds timed with ⟨seconds, rfl⟩
    rfl
  · intro origin originMember destination destinationMember
    rcases zoneOf origin originMember with ⟨source, originZone⟩
    rcases zoneOf destination destinationMember with ⟨node, destinationZone⟩
    rcases rowJob_inOrder_get? wellFormed priced fixed inside nodup finished originZone
      destinationZone with ⟨answered, time, finds, timed, cell⟩
    rcases numbered finds timed with ⟨seconds, rfl⟩
    exact ⟨seconds, cell⟩
  · intro zone member
    rcases zoneOf zone member with ⟨node, zoneMember⟩
    rcases Exact.isFinite_iff.mp finite with ⟨start, rfl⟩
    rw [rowJob_inOrder_get?_self wellFormed priced fixed inside nodup finished zoneMember,
      Exact.finite_sub_finite, sub_self]
    rfl

end

/-! ## Whole matrices -/

/-- The batch of a dense matrix has been run to its end: its tasks have taken the
workers of a pool, and have finished in some order. -/
structure IsDenseRun {α : Type} [Scalar α] (builder : MatrixBuilder α)
    (pool : WorkerPool (PathTree α)) (central : List (ζ × Nat)) (departure : α)
    (order : List Nat) (final : Batch (PathTree α) (ζ × Nat) (Matrix ζ α)) : Prop where
  run : Batch.Run (rowJob builder.graph ((sortZones central).map Prod.snd) departure)
    (Batch.make pool (sortZones central) (Matrix.make ((sortZones central).map Prod.fst)))
    order final
  ended : final.IsOver (rowJob builder.graph ((sortZones central).map Prod.snd) departure)

section

variable [LawfulBEq ζ] {builder : MatrixBuilder (Exact K)} {departure : Exact K}
  (wellFormed : builder.graph.WellFormed)
  (priced : ∀ link ∈ builder.graph.links, builder.cost.prices link = true)
  (fixed : builder.cost.HasFixedPassages builder.graph departure)
  (ordered : ZoneName.IsOrdered ζ) {central : List (ζ × Nat)}
  (nodup : (central.map Prod.fst).Nodup)
  (inside : ∀ zone ∈ central, zone.2 < builder.graph.size)

include wellFormed priced fixed ordered nodup inside

/-- However the tasks of a dense matrix are run to the end, what comes of it tells
whether central nodes are connected. -/
theorem tellsConnection_of_run {pool : WorkerPool (PathTree (Exact K))}
    (idle : pool.Idle (PathTree.Used builder.graph builder.cost builder.landmarks))
    {order : List Nat} {final : Batch (PathTree (Exact K)) (ζ × Nat) (Matrix ζ (Exact K))}
    (done : builder.IsDenseRun pool central departure order final) :
    builder.TellsConnection central departure final.result := by
  rcases done with ⟨run, ended⟩
  have sorting := sortZones_isSorting ordered central
  have sortedNodup : ((sortZones central).map Prod.fst).Nodup :=
    (sorting.perm.map Prod.fst).nodup_iff.mpr nodup
  have sortedInside : ∀ zone ∈ sortZones central, zone.2 < builder.graph.size :=
    fun zone member => inside zone (sorting.perm.mem_iff.mp member)
  have uniform : Job.IsUniform (rowJob builder.graph ((sortZones central).map Prod.snd) departure :
      Job _ (ζ × Nat) _ (Matrix ζ (Exact K))) _ builder.tree := rowJob_isUniform builder _ departure
  have apart := rowJob_writesApart builder ((sortZones central).map Prod.snd) departure sortedNodup
  have begins : (Matrix.make ((sortZones central).map Prod.fst) : Matrix ζ (Exact K)).IsOver
      ((sortZones central).map Prod.fst) := Matrix.make_isOver sortedNodup
  have inOrder (matrix : Matrix ζ (Exact K)) (done : final.result = .ok matrix) :=
    (run.result_eq_ok_iff uniform apart idle begins ended matrix).mp done
  have gap (error : Error) (failed : final.result = .error error) :
      builder.NamesGap central departure error := by
    rcases run.exists_failed uniform apart idle begins ended failed with
      ⟨origin, member, matrix, isOver, taskFailed⟩
    rcases rowJob_outcome_error wellFormed priced fixed sortedInside member isOver taskFailed with
      ⟨before, destination, after, split, earlier, unconnected, errorEq⟩
    exact ⟨origin, sorting.perm.mem_iff.mp member, before, destination, after, split ▸ sorting,
      earlier, unconnected, errorEq⟩
  refine ⟨⟨?_, ?_⟩, ?_, ?_, gap⟩
  · rintro ⟨matrix, done⟩ origin originMember destination destinationMember
    exact rowJob_inOrder_isConnected wellFormed priced fixed sortedInside sortedNodup
      (inOrder matrix done) origin (sorting.perm.mem_iff.mpr originMember) destination
      (sorting.perm.mem_iff.mpr destinationMember)
  · intro connected
    cases result : final.result with
    | ok matrix => exact ⟨matrix, rfl⟩
    | error error =>
        rcases gap error result with
          ⟨origin, member, before, destination, after, isSorting, -, unconnected, -⟩
        exact absurd (connected origin member destination
          (isSorting.perm.mem_iff.mp (by simp))) unconnected
  · intro matrix done
    exact ⟨_, sorting, (rowJob_inOrder sortedNodup (inOrder matrix done)).1.zones_eq⟩
  · intro matrix done
    exact rowJob_inOrder_isFilled wellFormed priced fixed sortedInside sortedNodup
      (inOrder matrix done)

theorem tellsConnection_denseMatrix {pool : WorkerPool (PathTree (Exact K))}
    (started : builder.startPool = .ok pool)
    (idle : pool.Idle (PathTree.Used builder.graph builder.cost builder.landmarks)) :
    builder.TellsConnection central departure (builder.denseMatrix central departure) := by
  have sorting := sortZones_isSorting ordered central
  have sortedNodup : ((sortZones central).map Prod.fst).Nodup :=
    (sorting.perm.map Prod.fst).nodup_iff.mpr nodup
  have checked : ((sortZones central).map (·.2)).forM builder.graph.checkNode = .ok () := by
    refine Graph.forM_checkNode ?_
    intro node member
    rcases List.mem_map.mp member with ⟨zone, zoneMember, rfl⟩
    exact inside zone (sorting.perm.mem_iff.mp zoneMember)
  rcases idle.submit_run (rowJob_isUniform builder ((sortZones central).map Prod.snd) departure)
      (rowJob_writesApart builder _ departure sortedNodup) (Matrix.make_isOver sortedNodup) with
    ⟨order, final, run, ended, submitted⟩
  rw [denseMatrix_eq_submit started checked, submitted]
  exact tellsConnection_of_run wellFormed priced fixed ordered nodup inside idle ⟨run, ended⟩

/-- A matrix tells that it takes no time from a zone to itself, if that can be told. -/
theorem denseMatrix_get?_self {pool : WorkerPool (PathTree (Exact K))}
    (started : builder.startPool = .ok pool)
    (idle : pool.Idle (PathTree.Used builder.graph builder.cost builder.landmarks))
    {matrix : Matrix ζ (Exact K)} (done : builder.denseMatrix central departure = .ok matrix)
    {zone : ζ × Nat} (member : zone ∈ central) :
    matrix.get? zone.1 zone.1 = Matrix.cellOf (departure - departure) := by
  have sorting := sortZones_isSorting ordered central
  exact rowJob_inOrder_get?_self wellFormed priced fixed
    (fun other otherMember => inside other (sorting.perm.mem_iff.mp otherMember))
    ((sorting.perm.map Prod.fst).nodup_iff.mpr nodup)
    (((hasDenseSkim started idle nodup departure).eq_ok_iff matrix).mp done)
    (sorting.perm.mem_iff.mpr member)

/-- A dense matrix has all its times exactly if central nodes reach each other along
links that can be used, and otherwise its error names a pair of them that is not
connected, whatever links cost and however the tasks are run. -/
theorem denseMatrix_connected (staffed : 0 < builder.workers) :
    builder.TellsConnection central departure (builder.denseMatrix central departure) ∧
      ∃ pool, builder.startPool = .ok pool ∧ ∀ order final,
        builder.IsDenseRun pool central departure order final →
          builder.TellsConnection central departure final.result := by
  rcases startPool_idle staffed with ⟨pool, started, idle⟩
  exact ⟨tellsConnection_denseMatrix wellFormed priced fixed ordered nodup inside started idle,
    pool, started, fun _ _ =>
      tellsConnection_of_run wellFormed priced fixed ordered nodup inside idle⟩

end

/-! ## The shuttle -/

/-- A builder of matrices over the shuttle. -/
def shuttle (cost : CostModel (Exact ℚ)) (workers : Nat) : MatrixBuilder (Exact ℚ) :=
  make Graph.shuttle cost workers

/-- Each way takes the shuttle ten seconds. -/
theorem shuttle_duration {link : Graph.Link (Exact ℚ)} (member : link ∈ Graph.shuttle.links) :
    link.length / link.freeSpeed = (.finite 10 : Exact ℚ) := by
  rcases Graph.shuttle_links member with ⟨length, speed⟩
  calc link.length / link.freeSpeed
      = .finite ((100 : Nat) : ℚ) / .finite ((10 : Nat) : ℚ) := by
        rw [length, speed]
        rfl
    _ = .finite (((100 : Nat) : ℚ) / ((10 : Nat) : ℚ)) := Exact.finite_div_finite _ (by norm_num)
    _ = .finite 10 := by norm_num

/-- If links can be used, the nodes of the shuttle are connected. -/
theorem isConnected_shuttle {cost : CostModel (Exact ℚ)} {workers : Nat} {departure : Exact ℚ}
    (passable : ∀ link ∈ Graph.shuttle.links, cost.IsPassable link departure) :
    (shuttle cost workers).IsConnected [("a", 0), ("b", 1)] departure := by
  have inside : ∀ zone ∈ [("a", 0), ("b", 1)], zone.2 < 2 := by decide
  intro origin originMember destination destinationMember
  exact CostModel.connects_of_walk passable
    (Graph.shuttle_walk (inside origin originMember) (inside destination destinationMember))

theorem freeSpeed_isPassable_shuttle (departure : Exact ℚ) :
    ∀ link ∈ Graph.shuttle.links, CostModel.freeSpeed.IsPassable link departure := by
  intro link member
  have duration := shuttle_duration member
  constructor
  · change Scalar.isFinite (link.length / link.freeSpeed) = true
    rw [duration, Exact.isFinite_finite]
  · change link.length / link.freeSpeed < .infinity
    rw [duration]
    exact Exact.finite_lt_infinity 10

theorem denseMatrix_connected_shuttle :
    (shuttle .freeSpeed 2).IsConnected [("a", 0), ("b", 1)] (28800 : ℚ) ∧
    (shuttle .freeSpeed 2).TellsConnection [("a", 0), ("b", 1)] (28800 : ℚ)
      ((shuttle .freeSpeed 2).denseMatrix [("a", 0), ("b", 1)] (28800 : ℚ)) ∧
    ∃ pool, (shuttle .freeSpeed 2).startPool = .ok pool ∧
      ∀ order final, (shuttle .freeSpeed 2).IsDenseRun pool
        [("a", 0), ("b", 1)] (28800 : ℚ) order final →
          (shuttle .freeSpeed 2).TellsConnection [("a", 0), ("b", 1)] (28800 : ℚ)
            final.result :=
  ⟨isConnected_shuttle (freeSpeed_isPassable_shuttle _),
    denseMatrix_connected Graph.shuttle_wellFormed (fun _ _ => rfl)
      (CostModel.IsSteady.hasFixedPassages (fun _ _ _ _ => ⟨rfl, rfl⟩) _)
      ZoneName.string_isOrdered (by decide) (by decide) Nat.zero_lt_two⟩

/-- Driving without delay, where every metre has a price besides. -/
def perMetre (price : Exact K) : CostModel (Exact K) where
  travelTime link _ := link.length / link.freeSpeed
  disutility link _ := link.length / link.freeSpeed + price * link.length
  minimum link := link.length / link.freeSpeed + price * link.length

/-- A link of the shuttle may pay without bound. -/
theorem perMetre_disutility_shuttle {link : Graph.Link (Exact ℚ)}
    (member : link ∈ Graph.shuttle.links) (time : Exact ℚ) :
    (perMetre .negativeInfinity).disutility link time = .negativeInfinity := by
  change link.length / link.freeSpeed + .negativeInfinity * link.length = .negativeInfinity
  rw [shuttle_duration member, (Graph.shuttle_links member).1]
  rfl

/-- Links that pay without bound are used, so there is a matrix though no link of finite
cost leads anywhere.  And whoever never departs is not at home in no time. -/
theorem denseMatrix_shuttle_unbounded :
    ((∃ matrix, (shuttle (perMetre .negativeInfinity) 1).denseMatrix
        [("a", 0), ("b", 1)] (0 : ℚ) = .ok matrix) ∧
      ¬ ∃ links, (Graph.shuttle : Graph (Exact ℚ)).Walk 0 links 1 ∧ ∀ link ∈ links,
        Scalar.isFinite ((perMetre .negativeInfinity).disutility link (0 : ℚ)) = true) ∧
    ∃ matrix, (shuttle .freeSpeed 1).denseMatrix
      [("a", 0), ("b", 1)] .infinity = .ok matrix ∧ matrix.get? "a" "a" = none := by
  refine ⟨⟨?_, ?_⟩, ?_⟩
  · have staffed : 0 < (shuttle (perMetre .negativeInfinity) 1).workers := Nat.zero_lt_one
    rcases startPool_idle staffed with ⟨pool, started, idle⟩
    refine (tellsConnection_denseMatrix Graph.shuttle_wellFormed (fun _ _ => rfl)
      (CostModel.IsSteady.hasFixedPassages (fun _ _ _ _ => ⟨rfl, rfl⟩) _)
      ZoneName.string_isOrdered (by decide) (by decide) started idle).ok_iff.mpr ?_
    refine isConnected_shuttle fun link member => ⟨?_, ?_⟩
    · change Scalar.isFinite (link.length / link.freeSpeed) = true
      rw [shuttle_duration member, Exact.isFinite_finite]
    · rw [perMetre_disutility_shuttle member]
      rfl
  · rintro ⟨links, walk, finite⟩
    rcases walk.exists_link Nat.zero_ne_one with ⟨link, followed, member⟩
    have priced := finite link followed
    rw [perMetre_disutility_shuttle member] at priced
    cases priced
  · have staffed : 0 < (shuttle .freeSpeed 1).workers := Nat.zero_lt_one
    rcases startPool_idle staffed with ⟨pool, started, idle⟩
    have fixed : (shuttle .freeSpeed 1).cost.HasFixedPassages (shuttle .freeSpeed 1).graph
        .infinity := CostModel.IsSteady.hasFixedPassages (fun _ _ _ _ => ⟨rfl, rfl⟩) _
    have nodup : ([("a", 0), ("b", 1)].map Prod.fst).Nodup := by decide
    have inside : ∀ zone ∈ [("a", 0), ("b", 1)], zone.2 < (shuttle .freeSpeed 1).graph.size := by
      decide
    have tells := tellsConnection_denseMatrix Graph.shuttle_wellFormed (fun _ _ => rfl) fixed
      ZoneName.string_isOrdered nodup inside started idle
    rcases tells.ok_iff.mpr (isConnected_shuttle (freeSpeed_isPassable_shuttle _)) with
      ⟨matrix, done⟩
    refine ⟨matrix, done, ?_⟩
    exact denseMatrix_get?_self Graph.shuttle_wellFormed (fun _ _ => rfl) fixed
      ZoneName.string_isOrdered nodup inside started idle done (List.mem_cons_self ..)

end MatrixBuilder

end JourneyTimes
