import JourneyTimes.Configuration.Document
import JourneyTimes.Cost.Transit
import JourneyTimes.Files.Access
import JourneyTimes.Matrix.Builder
import JourneyTimes.Network.Clean
import JourneyTimes.Network.Document
import JourneyTimes.Timetable.Document
import JourneyTimes.Timetable.Network
import JourneyTimes.Zones

/-!
# Runs

A run reads what its configuration asks for, computes journey times and
writes them to tables in the folder for results.  Every table is written as
soon as it is computed, so tables written before an error remain.
-/

namespace JourneyTimes

variable {m : Type → Type} [Monad m] [FileAccess m]
variable {α : Type} [Scalar α] [Numeric α]

/-- The name of the table of times between all zones. -/
def zoneTimesFile : String := "travel_times.csv"

/-- The name of the table of times to nearby nodes. -/
def nearbyTimesFile : String := "sparse_travel_times.csv"

/-- The name of the table of times between pairs of nodes. -/
def pairTimesFile : String := "od_travel_times.csv"

/-- A journey between two nodes, by their ids; without a time there is no
path. -/
structure PairTime (α : Type) where
  origin : String
  destination : String
  time : Option α
deriving Repr, DecidableEq

/-- What a run computed. -/
structure Results (α : Type) where
  graph : Graph α
  zoneTimes : Matrix String α
  nearbyTimes : Option (SparseMatrix α)
  pairTimes : List (PairTime α)

/-- A graph and what its links cost. -/
structure PricedGraph (α : Type) where
  graph : Graph α
  cost : CostModel α

namespace Run

/-- The text of a file, or `unreadable` if the file has no text. -/
def readText (unreadable : Error) (path : String) : ExceptT Error m String := do
  match ← FileAccess.read path with
  | .missing => throw .fileAccess
  | .unreadable => throw unreadable
  | .text content => pure content

/-- Write a table of a folder. -/
def writeTable (folder name table : String) : ExceptT Error m Unit := do
  unless ← FileAccess.write (PathText.join folder name) table do
    throw .malformedTable

/-- The graph of a network. -/
def graphOf (network : Network α) : Except Error (Graph α) :=
  (GraphSupply.start.make network).map (·.1)

/-- The graph of a timetable: rides and changes, at what they cost by the
timetable. -/
def loadTimetable (settings : RouterSettings α) (path : String) :
    ExceptT Error m (PricedGraph α) := do
  let timetable ← Timetable.ofDocument (← readText .fileAccess path)
  let network ← timetable.toNetwork settings
  pure ⟨← graphOf network, Transit.costModel timetable settings⟩

/-- The graph of a network, reduced to the links of a mode and then to its
largest part in which all nodes reach each other. -/
def loadNetwork (mode : Option String) (path : String) :
    ExceptT Error m (PricedGraph α) := do
  let network : Network α ←
    Network.ofDocument (← readText .malformedMarkup path)
  let usable := match mode with
    | some mode => network.filterByMode mode
    | none => network
  pure ⟨← graphOf usable.clean, .freeSpeed⟩

/-- The graph that a configuration asks for.  A timetable goes before a
network. -/
def load (settings : RouterSettings α) (source : Source α) :
    ExceptT Error m (PricedGraph α) := do
  match source with
  | .grid plan => pure ⟨← graphOf (Network.grid plan), .freeSpeed⟩
  | .dataset files =>
    match files.timetable, files.network with
    | some path, _ => loadTimetable settings path
    | none, some path => loadNetwork files.mode path
    | none, none => throw (.config .noDatasetPath)

/-- The central nodes of the zones in a table; without a table every node is
a zone. -/
def loadZones (graph : Graph α) (path : Option String) :
    ExceptT Error m CentralNodes := do
  match path with
  | none => pure (CentralNodes.ofNodes graph)
  | some path =>
    let zones : List (Zone α) ← Zone.ofTable (← readText .malformedTable path)
    CentralNodes.ofZones graph zones

/-- The node that a column of a record names. -/
def pairEnd (graph : Graph α) (row : Csv.Row) (column : String) :
    Except Error Nat := do
  let id ← row.require "od pairs" column
  match graph.nodeIndex? (Text.trim id) with
  | some node => pure node
  | none => throw (.unknownNode id)

/-- The pair of nodes of a record with the columns `from` and `to`. -/
def readPair (graph : Graph α) (row : Csv.Row) : Except Error (Nat × Nat) := do
  let origin ← pairEnd graph row "from"
  let destination ← pairEnd graph row "to"
  pure (origin, destination)

/-- The record of a journey; the time of one that is not possible is left
empty. -/
def PairTime.record (pair : PairTime α) : Csv.Record :=
  [pair.origin, pair.destination, (pair.time.map Numeric.text).getD ""]

/-- The times of journeys as a table. -/
def pairTable (pairs : List (PairTime α)) : String :=
  Csv.write (["from", "to", "time"] :: pairs.map PairTime.record)

/-- Compute and write the times between all zones. -/
def computeZoneTimes (configuration : Configuration α)
    (builder : MatrixBuilder α) (central : CentralNodes) :
    ExceptT Error m (Matrix String α) := do
  let matrix ← builder.denseMatrix central.toList configuration.departure
  writeTable configuration.output zoneTimesFile matrix.toCsv
  pure matrix

/-- Compute and write the times to nearby nodes, up to a distance. -/
def computeNearbyTimes (configuration : Configuration α)
    (builder : MatrixBuilder α) (maxDistance : α) :
    ExceptT Error m (SparseMatrix α) := do
  let matrix ← builder.sparseMatrix maxDistance configuration.departure
  writeTable configuration.output nearbyTimesFile
    (← matrix.toCsv builder.graph)
  pure matrix

/-- The builder with the landmarks that a configuration asks for. -/
def guide (configuration : Configuration α) (builder : MatrixBuilder α) :
    Except Error (MatrixBuilder α) :=
  if configuration.landmarks = 0 then .ok builder
  else
    let factory : LandmarksFactory α :=
      .make configuration.landmarks configuration.selection
    (builder.withLandmarks factory).map (·.1)

/-- Compute and write the times between the pairs of nodes in a table. -/
def computePairTimes (configuration : Configuration α)
    (builder : MatrixBuilder α) (path : String) :
    ExceptT Error m (List (PairTime α)) := do
  let graph := builder.graph
  let guided ← guide configuration builder
  let table ← readText .malformedTable path
  let pairs ← Csv.mapRows table (readPair graph)
  let times ← guided.journeyTimes pairs configuration.departure
  let pairTimes := (pairs.zip times).map fun ((origin, destination), time) =>
    (⟨graph.nodeId origin, graph.nodeId destination, time⟩ : PairTime α)
  writeTable configuration.output pairTimesFile (pairTable pairTimes)
  pure pairTimes

/-- Make the folder for the results. -/
def makeOutput (configuration : Configuration α) : ExceptT Error m Unit := do
  unless ← FileAccess.makeFolders configuration.output do
    throw .fileAccess

end Run

namespace Configuration

/-- Read the configuration in a file, with the number of workers where none
is given. -/
def ofFile (workers : Nat) (path : String) :
    ExceptT Error m (Configuration α) := do
  let document ← Run.readText .fileAccess path
  ofDocument ((PathText.folder? path).getD ".") workers document

/-- Do what a configuration asks for. -/
def run (configuration : Configuration α) : ExceptT Error m (Results α) := do
  let { graph, cost } ← Run.load configuration.router configuration.source
  let central ← Run.loadZones graph configuration.zones
  let builder := MatrixBuilder.make graph cost configuration.workers
  Run.makeOutput configuration
  let zoneTimes ← Run.computeZoneTimes configuration builder central
  let nearbyTimes ← configuration.maxDistance.mapM
    (Run.computeNearbyTimes configuration builder)
  let pairTimes ← match configuration.pairs with
    | some path => Run.computePairTimes configuration builder path
    | none => pure []
  pure { graph, zoneTimes, nearbyTimes, pairTimes }

end Configuration

end JourneyTimes
