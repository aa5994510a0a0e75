import JourneyTimes.Graph.Basic
import JourneyTimes.Table.Csv

/-!
# Sparse matrices

A sparse matrix lists for every node the nodes near it, with the time it takes
to get there, in the order in which a search settled them.  Only nodes whose
neighbourhood has been computed have a row.
-/

namespace JourneyTimes

/-- A node that is reached, and the time it takes. -/
structure NodeTime (α : Type) where
  node : Nat
  time : α
deriving Repr, DecidableEq

/-- The nodes near one node. -/
abbrev SparseRow (α : Type) := List (NodeTime α)

/-- The time in a row to a node. -/
def SparseRow.time? {α : Type} (row : SparseRow α) (node : Nat) : Option α :=
  (row.find? fun entry => entry.node == node).map (·.time)

/-- Journey times from every node to the nodes near it. -/
structure SparseMatrix (α : Type) where
  rows : Array (Option (SparseRow α))
deriving Repr

namespace SparseMatrix

variable {α : Type} [Scalar α]

/-- The matrix over some number of nodes that has no rows yet. -/
def make (size : Nat) : SparseMatrix α := ⟨Array.replicate size none⟩

/-- Write the row of a node. -/
def setRow (matrix : SparseMatrix α) (origin : Nat) (row : SparseRow α) :
    Except Error (SparseMatrix α) :=
  if origin < matrix.rows.size then
    .ok ⟨matrix.rows.setIfInBounds origin (some row)⟩
  else .error (.nodeOutOfRange origin)

/-- The row of a node. -/
def row? (matrix : SparseMatrix α) (origin : Nat) : Option (SparseRow α) :=
  (matrix.rows[origin]?).join

/-- The time from one node to another, if the row lists it. -/
def get? (matrix : SparseMatrix α) (origin destination : Nat) : Option α :=
  (matrix.row? origin).bind (·.time? destination)

/-- The number of entries in all rows. -/
def count (matrix : SparseMatrix α) : Nat :=
  (matrix.rows.toList.flatMap fun row => row.getD []).length

/-- The record of an entry, with nodes named by a graph. -/
def entryRecord [Numeric α] (graph : Graph α) (origin : Nat)
    (entry : NodeTime α) : Except Error Csv.Record := do
  graph.checkNode entry.node
  pure [graph.nodeId origin, graph.nodeId entry.node, Numeric.text entry.time]

/-- The records of a row, if the node at a position has one. -/
def rowRecords [Numeric α] (graph : Graph α) (origin : Nat) :
    Option (SparseRow α) → Except Error (List Csv.Record)
  | none => .ok []
  | some row => do
    graph.checkNode origin
    row.mapM (entryRecord graph origin)

/-- The matrix as records: the names of the columns, and a record for every
entry, row after row. -/
def records [Numeric α] (matrix : SparseMatrix α) (graph : Graph α) :
    Except Error (List Csv.Record) := do
  let rows ← matrix.rows.toList.zipIdx.mapM fun (row, origin) =>
    rowRecords graph origin row
  pure (["from", "to", "time"] :: rows.flatten)

/-- The matrix as a table. -/
def toCsv [Numeric α] (matrix : SparseMatrix α) (graph : Graph α) :
    Except Error String :=
  (matrix.records graph).map Csv.write

end SparseMatrix

end JourneyTimes
