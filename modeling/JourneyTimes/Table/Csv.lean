/-!
# Tables in comma-separated form

A table is a text of records, one a line, with commas between the fields of a
record.  The first record names the columns.  A field that holds a comma, a
quote or the end of a line is put in quotes, and a quote inside it is written
twice.

Lines end with a line feed, a carriage return, or both.  Empty lines do not
count, and neither does a byte order mark in front of the text.
-/

namespace JourneyTimes.Csv

/-- A record: the fields of a line. -/
abbrev Record := List String

/-- Where in a record the reader is. -/
inductive Mode where
  /-- Before a record. -/
  | lineStart
  /-- Before a field. -/
  | fieldStart
  /-- In a field, outside quotes. -/
  | plain
  /-- In quotes. -/
  | quoted
  /-- After a quote that ends the quotes, unless another one follows. -/
  | afterQuote
deriving Repr, DecidableEq

/-- What the reader has read: all records, the fields of the current one, and
the characters of the current field, the latest first in each. -/
structure State where
  mode : Mode
  records : List Record
  fields : List String
  field : List Char
deriving Repr, DecidableEq

/-- Whether a character ends a line. -/
def isLineEnd (character : Char) : Bool :=
  character = '\n' || character = '\r'

namespace State

/-- Nothing has been read. -/
def initial : State := ⟨.lineStart, [], [], []⟩

/-- Put a character into the current field. -/
def keep (state : State) (mode : Mode) (character : Char) : State :=
  { state with mode, field := character :: state.field }

/-- End the current field; another one follows. -/
def endField (state : State) : State :=
  { state with
    mode := .fieldStart
    fields := String.ofList state.field.reverse :: state.fields
    field := [] }

/-- End the current field and the record. -/
def endRecord (state : State) : State :=
  let fields := (String.ofList state.field.reverse :: state.fields).reverse
  ⟨.lineStart, fields :: state.records, [], []⟩

/-- Read a character outside quotes, after which the reader is in `mode`. -/
def readPlain (state : State) (character : Char) : State :=
  if character = ',' then state.endField
  else if isLineEnd character then state.endRecord
  else state.keep .plain character

/-- Read a character before a field. -/
def readFieldStart (state : State) (character : Char) : State :=
  if character = '"' then { state with mode := .quoted }
  else state.readPlain character

/-- Read a character. -/
def read (state : State) (character : Char) : State :=
  match state.mode with
  | .lineStart =>
    if isLineEnd character then state else state.readFieldStart character
  | .fieldStart => state.readFieldStart character
  | .plain => state.readPlain character
  | .quoted =>
    if character = '"' then { state with mode := .afterQuote }
    else state.keep .quoted character
  | .afterQuote =>
    if character = '"' then state.keep .quoted character
    else state.readPlain character

/-- End the text: a record that has begun ends with it. -/
def finish (state : State) : List Record :=
  let final := if state.mode = .lineStart then state else state.endRecord
  final.records.reverse

end State

/-- The records of a text. -/
def read (text : String) : List Record :=
  let characters := match text.toList with
    | '\ufeff' :: rest => rest
    | characters => characters
  (characters.foldl State.read .initial).finish

/-- Whether a field has to be put in quotes. -/
def needsQuotes (field : String) : Bool :=
  field.toList.any fun character =>
    character = ',' || character = '"' || isLineEnd character

/-- Write a field. -/
def writeField (field : String) : String :=
  if needsQuotes field then
    let doubled := field.toList.flatMap fun character =>
      if character = '"' then ['"', '"'] else [character]
    String.ofList ('"' :: doubled ++ ['"'])
  else field

/-- Write a record as a line. -/
def writeRecord (record : Record) : String :=
  ",".intercalate (record.map writeField) ++ "\n"

/-- Write records, line after line. -/
def write (records : List Record) : String :=
  String.join (records.map writeRecord)

end JourneyTimes.Csv
