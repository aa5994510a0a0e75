import JourneyTimes.Error
import JourneyTimes.Table.Csv

/-!
# Columns of tables

The fields of a record are addressed by the names in the first record of
their table.  If a name occurs several times the last of its columns counts.
A record must have as many fields as there are names; that is checked when
the record is used, so that what is wrong with an earlier record is reported
first.
-/

namespace JourneyTimes.Csv

/-- A record with the names of its fields. -/
structure Row where
  names : List String
  fields : Record
deriving Repr, DecidableEq

/-- The field in a column. -/
def Row.column? (row : Row) (name : String) : Option String :=
  (row.names.zip row.fields).reverse.lookup name

/-- The field in a column that a table must have. -/
def Row.require (row : Row) (table name : String) : Except Error String :=
  match row.column? name with
  | some field => .ok field
  | none => .error (.input (.missingColumn table name))

/-- Refuse a record of the wrong length. -/
def Row.check (row : Row) : Except Error Unit :=
  if row.fields.length = row.names.length then .ok ()
  else .error .malformedTable

/-- Read every record of a table after the first, from the first to the last
one. -/
def mapRows {β : Type} (text : String) (readRow : Row → Except Error β) :
    Except Error (List β) :=
  match read text with
  | [] => .ok []
  | names :: records => records.mapM fun fields => do
    let row : Row := ⟨names, fields⟩
    row.check
    readRow row

end JourneyTimes.Csv
