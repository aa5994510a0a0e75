import JourneyTimes.Cost.Readers
import JourneyTimes.Files.Tree
import JourneyTimes.Main
import JourneyTimes.Matrix.Progress
import JourneyTimes.Proofs.Search.Sound
import JourneyTimes.Proofs.Search.Once
import JourneyTimes.Proofs.Search.Relaxed
import JourneyTimes.Proofs.Search.Levelled
import JourneyTimes.Proofs.Search.Answer
import JourneyTimes.Proofs.Search.Rooted
import JourneyTimes.Proofs.Search.ReportedPath
import JourneyTimes.Proofs.Search.Cut
import JourneyTimes.Proofs.Search.Solved
import JourneyTimes.Proofs.Search.EarliestArrival
import JourneyTimes.Proofs.Search.Heap
import JourneyTimes.Proofs.Search.Sweep
import JourneyTimes.Proofs.Landmarks.Bound
import JourneyTimes.Proofs.Search.Trail
import JourneyTimes.Proofs.Search.Guided
import JourneyTimes.Proofs.Search.LandmarkPath
import JourneyTimes.Proofs.Timetable.Departures
import JourneyTimes.Proofs.Timetable.Network
import JourneyTimes.Proofs.Cost.Transit
import JourneyTimes.Proofs.Cost.Overtaking
import JourneyTimes.Proofs.Search.Chronicle
import JourneyTimes.Proofs.Search.Shadow
import JourneyTimes.Proofs.Search.Shortcut
import JourneyTimes.Proofs.Matrix.Sparse
import JourneyTimes.Proofs.Matrix.Neighbourhood
import JourneyTimes.Proofs.Cost.Readers
import JourneyTimes.Proofs.Search.Distance
import JourneyTimes.Proofs.Landmarks.Distance
import JourneyTimes.Proofs.Search.Fresh
import JourneyTimes.Proofs.Pool.Order
import JourneyTimes.Proofs.Pool.Schedule
import JourneyTimes.Proofs.Matrix.Dense
import JourneyTimes.Proofs.Matrix.Skims
import JourneyTimes.Proofs.Search.Spread
import JourneyTimes.Proofs.Matrix.Connected
import JourneyTimes.Proofs.Timetable.Overnight
import JourneyTimes.Proofs.Cost.Boarding
import JourneyTimes.Proofs.Search.History
import JourneyTimes.Proofs.Pool.Lending
import JourneyTimes.Proofs.Pool.Conservation
import JourneyTimes.Proofs.Landmarks.Consistent
import JourneyTimes.Proofs.Search.Consistent
import JourneyTimes.Proofs.Search.GuidedPath
import JourneyTimes.Proofs.Cost.Memory
import JourneyTimes.Proofs.Landmarks.Factory
import JourneyTimes.Proofs.Cost.Minima
import JourneyTimes.Proofs.Search.Agreement
import JourneyTimes.Proofs.Matrix.Agreement
import JourneyTimes.Proofs.Geometry.Places
import JourneyTimes.Proofs.Run.Agreement
import JourneyTimes.Proofs.Search.Hops
import JourneyTimes.Proofs.Search.Targets
import JourneyTimes.Proofs.Network.Grid
import JourneyTimes.Proofs.Network.WellFormed
import JourneyTimes.Proofs.Timetable.Stops
import JourneyTimes.Proofs.Timetable.Links
import JourneyTimes.Proofs.Timetable.Nodes
import JourneyTimes.Proofs.Cost.InRange
import JourneyTimes.Proofs.Matrix.Grid
import JourneyTimes.Proofs.Search.Deadline
import JourneyTimes.Proofs.Search.Linked
import JourneyTimes.Proofs.Search.Forest
import JourneyTimes.Proofs.Search.Reopening
import JourneyTimes.Proofs.Search.ReopenedPath
import JourneyTimes.Proofs.Search.Reversal
import JourneyTimes.Proofs.Scalar.Double
import JourneyTimes.Proofs.Graph.Adjacency
import JourneyTimes.Proofs.Graph.Relation
import JourneyTimes.Proofs.Graph.Finishing
import JourneyTimes.Proofs.Graph.Components
import JourneyTimes.Proofs.Network.Editing
import JourneyTimes.Proofs.Network.Clean
import JourneyTimes.Proofs.Scalar.Sorted
import JourneyTimes.Proofs.Search.Settling
import JourneyTimes.Proofs.Search.Outreach
import JourneyTimes.Proofs.Matrix.InOrder
import JourneyTimes.Proofs.Matrix.Clean
import JourneyTimes.Proofs.Cost.Sharing
import JourneyTimes.Proofs.Landmarks.Farthest
import JourneyTimes.Proofs.Timetable.Document
import JourneyTimes.Proofs.Matrix.Cells
import JourneyTimes.Proofs.Search.Resetting
