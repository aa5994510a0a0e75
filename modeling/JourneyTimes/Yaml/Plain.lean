import JourneyTimes.Yaml.Gap

/-!
# Scalars without quotes

A scalar without quotes goes on, also over several lines, up to a comment, a
colon with a blank behind it, or a line that is indented too little.  Inside
brackets and braces the marks of these end it as well.
-/

namespace JourneyTimes.Yaml

/-- Whether a character ends a scalar without quotes, seen with the one behind
it. -/
def endsPlain (inFlow : Bool) (character next : Char) : Bool :=
  character == ':' && (isWordEnd next || inFlow && isFlowMark next) ||
    inFlow && isFlowMark character

/-- The length of the word of a scalar that a text begins with. -/
def plainWordLength (inFlow : Bool) : List Char → Nat
  | [] => 0
  | character :: rest =>
    if isWordEnd character ∨ endsPlain inFlow character (rest.headD ending)
    then 0
    else plainWordLength inFlow rest + 1

/-- A scalar without quotes. -/
structure Plain where
  text : String
  /-- Whether a break of a line was read behind it. -/
  isBehindBreak : Bool
  cursor : Cursor

/-- The scalar of the words so far, the latest character first. -/
def Plain.ofRead (read : List Char) (gap : Gap) (cursor : Cursor) : Plain :=
  ⟨String.ofList read.reverse, 0 < gap.breaks, cursor⟩

/-- Read words up to the end of the scalar.  The gap is the one in front of the
cursor; it belongs to the text if a word follows. -/
def readPlainWords (inFlow : Bool) (indent : Int) :
    Nat → List Char → Gap → Cursor → Option Plain
  | 0, _, _, _ => none
  | fuel + 1, read, gap, cursor =>
    if cursor.isAtDocumentMark ∨ cursor.current = '#' then
      some (.ofRead read gap cursor)
    else
      let length := plainWordLength inFlow cursor.rest
      let word := cursor.rest.take length
      let cursor := cursor.advance length
      let (read, gap) :=
        if length = 0 then (read, gap)
        else (word.reverse ++ gap.text.reverse ++ read, Gap.empty)
      if isSpace cursor.current ∨ isBreak cursor.current then
        match Gap.read false indent cursor with
        | none => none
        | some (gap, cursor) =>
          if !inFlow ∧ (cursor.column : Int) < indent then
            some (.ofRead read gap cursor)
          else readPlainWords inFlow indent fuel read gap cursor
      else some (.ofRead read gap cursor)

/-- Read a scalar without quotes; its lines are indented to the column
`indent` at least. -/
def readPlain (inFlow : Bool) (indent : Int) (cursor : Cursor) :
    Option Plain :=
  readPlainWords inFlow indent (cursor.rest.length + 1) [] Gap.empty cursor

end JourneyTimes.Yaml
