import Std.Data.HashMap
import JourneyTimes.Error
import JourneyTimes.Matrix.Zone
import JourneyTimes.Scalar
import JourneyTimes.Table.Csv

/-!
# Dense matrices

A dense matrix has a cell for every pair of zones.  A cell is undefined until
a value is written to it, and again when an undefined value is.
-/

namespace JourneyTimes

/-- Journey times between all pairs of zones. -/
structure Matrix (ζ α : Type) [BEq ζ] [Hashable ζ] where
  /-- The zones, each once, in the order in which they came. -/
  zones : Array ζ
  positions : Std.HashMap ζ Nat
  /-- A row for every zone, with a cell for every zone. -/
  rows : Array (Array (Option α))

namespace Matrix

variable {ζ α : Type} [BEq ζ] [Hashable ζ] [ZoneName ζ] [Scalar α]

/-- Zones and their positions, with one more zone unless it is there. -/
def addZone (known : Array ζ × Std.HashMap ζ Nat) (zone : ζ) :
    Array ζ × Std.HashMap ζ Nat :=
  if known.2.contains zone then known
  else (known.1.push zone, known.2.insert zone known.1.size)

/-- The matrix over some zones with no cell defined.  Repeated zones count
once. -/
def make (zones : List ζ) : Matrix ζ α :=
  let (zones, positions) := zones.foldl addZone (#[], ∅)
  { zones, positions
    rows := Array.replicate zones.size (Array.replicate zones.size none) }

/-- The position of a zone. -/
def position? (matrix : Matrix ζ α) (zone : ζ) : Option Nat :=
  matrix.positions[zone]?

/-- The position of a zone that the matrix must have. -/
def require (matrix : Matrix ζ α) (zone : ζ) : Except Error Nat :=
  match matrix.position? zone with
  | some position => .ok position
  | none => .error (.unknownZone (ZoneName.shown zone))

/-- What a cell holds once a value is written to it. -/
def cellOf (value : α) : Option α :=
  if Scalar.isUndefined value then none else some value

/-- Write a value to the cell of two zones. -/
def set (matrix : Matrix ζ α) (origin destination : ζ) (value : α) :
    Except Error (Matrix ζ α) := do
  let row ← matrix.require origin
  let column ← matrix.require destination
  pure
    { matrix with
      rows := matrix.rows.modify row (·.setIfInBounds column (cellOf value)) }

/-- Write values to all cells of a row, in the order of the zones. -/
def setRow (matrix : Matrix ζ α) (origin : ζ) (values : List α) :
    Except Error (Matrix ζ α) := do
  let row ← matrix.require origin
  if values.length ≠ matrix.zones.size then
    throw (.config (.rowLength values.length matrix.zones.size))
  pure
    { matrix with
      rows := matrix.rows.setIfInBounds row (values.map cellOf).toArray }

/-- The value in the cell at two positions. -/
def cell? (matrix : Matrix ζ α) (row column : Nat) : Option α := do
  let cells ← matrix.rows[row]?
  (cells[column]?).join

/-- The value in the cell of two zones. -/
def get? (matrix : Matrix ζ α) (origin destination : ζ) : Option α := do
  let row ← matrix.position? origin
  let column ← matrix.position? destination
  matrix.cell? row column

/-- The number of defined cells. -/
def count (matrix : Matrix ζ α) : Nat :=
  (matrix.rows.toList.flatMap Array.toList).countP Option.isSome

/-- Whether every cell is defined. -/
def isComplete (matrix : Matrix ζ α) : Bool :=
  matrix.count == matrix.zones.size * matrix.zones.size

/-- The records of the defined cells of a row. -/
def rowRecords [Numeric α] (zones : List ζ) (origin : ζ)
    (cells : List (Option α)) : List Csv.Record :=
  (zones.zip cells).filterMap fun (destination, cell) =>
    cell.map fun value =>
      [ZoneName.written origin, ZoneName.written destination,
        Numeric.text value]

/-- The matrix as records: the names of the columns, and a record for every
defined cell, row after row. -/
def records [Numeric α] (matrix : Matrix ζ α) : List Csv.Record :=
  let zones := matrix.zones.toList
  ["from", "to", "time"] ::
    (zones.zip matrix.rows.toList).flatMap fun (origin, cells) =>
      rowRecords zones origin cells.toList

/-- The matrix as a table. -/
def toCsv [Numeric α] (matrix : Matrix ζ α) : String :=
  Csv.write matrix.records

end Matrix

end JourneyTimes
