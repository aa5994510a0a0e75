import JourneyTimes.Landmarks.Factory
import JourneyTimes.Matrix.Dense
import JourneyTimes.Matrix.Sparse
import JourneyTimes.Pool.Batch
import JourneyTimes.Search.Tree

/-!
# Building matrices

A matrix is built by one search for every origin.  The searches are the tasks
of a batch, spread over a pool of path trees; every task writes a row, or a
slot, of its own.
-/

namespace JourneyTimes

/-- What matrices are built from: a graph, a cost model, a number of workers,
and perhaps landmarks for journeys between two nodes. -/
structure MatrixBuilder (α : Type) where
  graph : Graph α
  cost : CostModel α
  workers : Nat
  landmarks : Option (Landmarks α)

namespace MatrixBuilder

variable {ζ α : Type} [BEq ζ] [Hashable ζ] [ZoneName ζ] [Scalar α]

/-- A builder without landmarks. -/
def make (graph : Graph α) (cost : CostModel α) (workers : Nat) :
    MatrixBuilder α :=
  { graph, cost, workers, landmarks := none }

/-- Guide journeys between two nodes by the landmarks of a factory. -/
def withLandmarks (builder : MatrixBuilder α) (factory : LandmarksFactory α) :
    Except Error (MatrixBuilder α × LandmarksFactory α) := do
  let (landmarks, factory) ← factory.request builder.graph builder.cost
  pure ({ builder with landmarks := some landmarks }, factory)

/-- A path tree of a worker. -/
def tree (builder : MatrixBuilder α) : PathTree α :=
  match builder.landmarks with
  | some landmarks =>
    PathTree.withLandmarks builder.graph builder.cost landmarks
  | none => PathTree.make builder.graph builder.cost

/-- A pool with a path tree for every worker. -/
def startPool (builder : MatrixBuilder α) :
    Except Error (WorkerPool (PathTree α)) :=
  WorkerPool.make (List.replicate builder.workers builder.tree)

/-- Run a query on a path tree and read off an answer.  A query that is
refused leaves the tree as it was. -/
def ask {ω : Type}
    (query : PathTree α → Except Error (PathTree α))
    (answer : PathTree α → Except Error ω) (tree : PathTree α) :
    Except Error ω × PathTree α :=
  match query tree with
  | .error error => (.error error, tree)
  | .ok answered => (answer answered, answered)

/-! ## All pairs of zones -/

/-- The time from the source of the last query to a node that it must have
reached. -/
def timeTo (graph : Graph α) (source : Nat) (departure : α)
    (tree : PathTree α) (destination : Nat) : Except Error α :=
  match tree.time? destination with
  | some time => .ok (time - departure)
  | none =>
    .error (.disconnected (graph.nodeId source) (graph.nodeId destination))

/-- The task of a row: search from the central node of a zone, and write the
times to all central nodes. -/
def rowJob (graph : Graph α) (nodes : List Nat) (departure : α) :
    Job (PathTree α) (ζ × Nat) (List α) (Matrix ζ α) where
  work item := ask (·.calculate item.2 departure .unbounded)
    fun tree => nodes.mapM (timeTo graph item.2 departure tree)
  record item row matrix := matrix.setRow item.1 row

/-- Zones with their central nodes, in the order of the zones. -/
def sortZones (central : List (ζ × Nat)) : List (ζ × Nat) :=
  central.mergeSort fun left right => ZoneName.atMost left.1 right.1

/-- The times between the central nodes of all pairs of zones, departing at a
time.  Every zone has one central node, and each of them must reach all
others. -/
def denseMatrix (builder : MatrixBuilder α) (central : List (ζ × Nat))
    (departure : α) : Except Error (Matrix ζ α) := do
  let zones := sortZones central
  let nodes := zones.map (·.2)
  nodes.forM builder.graph.checkNode
  let pool ← builder.startPool
  (pool.submit (rowJob builder.graph nodes departure) zones
    (Matrix.make (zones.map (·.1)))).1

/-! ## Neighbourhoods of nodes -/

/-- The reached nodes of the last query with their times, in order. -/
def reachedTimes (departure : α) (tree : PathTree α) : SparseRow α :=
  tree.reached.toList.filterMap fun node =>
    (tree.time? node).map fun time => ⟨node, time - departure⟩

/-- The task of a sparse row: search from a node, up to a distance. -/
def neighbourhoodJob (maxDistance departure : α) :
    Job (PathTree α) Nat (SparseRow α) (SparseMatrix α) where
  work source := ask (·.calculate source departure (.maxDistance maxDistance))
    fun tree => .ok (reachedTimes departure tree)
  record source row matrix := matrix.setRow source row

/-- The times from every node to the nodes whose least-cost path from it is
shorter than a distance. -/
def sparseMatrix (builder : MatrixBuilder α) (maxDistance departure : α) :
    Except Error (SparseMatrix α) := do
  let pool ← builder.startPool
  (pool.submit (neighbourhoodJob maxDistance departure)
    (List.range builder.graph.size) (SparseMatrix.make builder.graph.size)).1

/-! ## Single journeys -/

/-- A journey from one node to another, and the slot for its time. -/
structure Journey where
  slot : Nat
  origin : Nat
  destination : Nat
deriving Repr, DecidableEq

/-- The task of a journey: search for a path between its ends. -/
def journeyJob (departure : α) :
    Job (PathTree α) Journey (Option α) (Array (Option α)) where
  work journey tree :=
    match tree.calculatePath journey.origin journey.destination departure with
    | .error error => (.error error, tree)
    | .ok (path, answered) => (.ok (path.map (·.travelTime)), answered)
  record journey time times := .ok (times.setIfInBounds journey.slot time)

/-- The times of journeys between pairs of nodes; pairs that are not connected
have none. -/
def journeyTimes (builder : MatrixBuilder α) (pairs : List (Nat × Nat))
    (departure : α) : Except Error (List (Option α)) := do
  let journeys := pairs.zipIdx.map fun ((origin, destination), slot) =>
    (⟨slot, origin, destination⟩ : Journey)
  let pool ← builder.startPool
  let times ← (pool.submit (journeyJob departure) journeys
    (Array.replicate pairs.length none)).1
  pure times.toList

end MatrixBuilder

end JourneyTimes
