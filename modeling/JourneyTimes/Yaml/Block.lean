import JourneyTimes.Yaml.Cursor

/-!
# Scalars in blocks

A scalar may take lines of its own below a bar or an angle.  Behind a bar the
lines are kept as they are; behind an angle breaks between lines are folded
into blanks, except next to lines that are indented more.  A mark behind the
bar says what happens to the breaks at the end, and a digit how far the block
is indented.
-/

namespace JourneyTimes.Yaml

/-- What happens to the breaks at the end of a block. -/
inductive Chomping where
  /-- All are dropped. -/
  | strip
  /-- The first is kept. -/
  | clip
  | keep
deriving Repr, DecidableEq

/-- What stands behind the bar or angle. -/
structure BlockHeader where
  chomping : Chomping
  /-- How far the block is indented, or `0` if this is not said. -/
  increment : Nat
deriving Repr, DecidableEq

/-- A mark of how to end a block, if there is one. -/
def readChomping (cursor : Cursor) : Option (Chomping × Cursor) :=
  if cursor.current = '+' then some (.keep, cursor.advance 1)
  else if cursor.current = '-' then some (.strip, cursor.advance 1)
  else none

/-- A digit of indentation, which is not zero; without a digit it is zero. -/
def readIncrement (cursor : Cursor) : Option (Nat × Cursor) :=
  if cursor.current = '0' then none
  else if cursor.current.isDigit then
    some (cursor.current.toNat - '0'.toNat, cursor.advance 1)
  else some (0, cursor)

/-- The two marks in either order. -/
def readHeader (cursor : Cursor) : Option (BlockHeader × Cursor) := do
  match readChomping cursor with
  | some (chomping, cursor) =>
    let (increment, cursor) ← readIncrement cursor
    pure (⟨chomping, increment⟩, cursor)
  | none =>
    let (increment, behind) ← readIncrement cursor
    match readChomping behind with
    | some (chomping, behind) => pure (⟨chomping, increment⟩, behind)
    | none => pure (⟨.clip, increment⟩, behind)

/-- What lies between the lines of a block. -/
structure BlockGap where
  /-- The number of lines without content. -/
  breaks : Nat
  /-- The greatest column that blanks led to. -/
  deepest : Nat
  cursor : Cursor

/-- Go on to the next line with content, over the blanks of its indentation.
With `indent` being `0`, all blanks are indentation.  A tab must not stand in
the indentation. -/
def readBlockGap (indent : Nat) : Nat → BlockGap → Option BlockGap
  | 0, _ => none
  | fuel + 1, gap =>
    let blanks := (gap.cursor.rest.takeWhile (· == ' ')).length
    let count :=
      if indent = 0 then blanks else min blanks (indent - gap.cursor.column)
    let cursor := gap.cursor.advance count
    let deepest := max gap.deepest cursor.column
    if (indent = 0 ∨ cursor.column < indent) ∧ cursor.current = '\t' then none
    else if isBreak cursor.current then
      readBlockGap indent fuel ⟨gap.breaks + 1, deepest, cursor.skipBreak⟩
    else some ⟨gap.breaks, deepest, cursor⟩

/-- Go on to the next line with content of a block. -/
def toNextLine (indent : Nat) (cursor : Cursor) : Option BlockGap :=
  readBlockGap indent (cursor.rest.length + 1) ⟨0, 0, cursor⟩

/-- The lines of a block that have been read. -/
structure BlockLines where
  /-- The text of the lines, the latest character first. -/
  read : List Char
  /-- Whether the last line ended in a break. -/
  hasBreak : Bool
  /-- The number of lines without content behind it. -/
  emptyLines : Nat
  /-- Whether the last line began with a blank. -/
  wasIndented : Bool

namespace BlockLines

/-- What stands for the break behind the last line, in front of a line that
begins with a blank or does not. -/
def joint (lines : BlockLines) (isLiteral isIndented : Bool) : List Char :=
  if !lines.hasBreak then []
  else if isLiteral || lines.wasIndented || isIndented then ['\n']
  else if lines.emptyLines = 0 then [' ']
  else []

/-- The lines with one more, which begins at the cursor. -/
def add (lines : BlockLines) (isLiteral : Bool) (cursor : Cursor) :
    BlockLines × Cursor :=
  let isIndented := isSpace cursor.current
  let (line, behind) := cursor.span fun c => !isLineEnd c
  let gap := lines.joint isLiteral isIndented ++
    List.replicate lines.emptyLines '\n'
  (⟨line.reverse ++ gap.reverse ++ lines.read, false, 0, isIndented⟩, behind)

/-- The text of the block. -/
def text (lines : BlockLines) (chomping : Chomping) : String :=
  let last := if lines.hasBreak then ['\n'] else []
  let more := List.replicate lines.emptyLines '\n'
  String.ofList (lines.read.reverse ++
    match chomping with
    | .strip => []
    | .clip => last
    | .keep => last ++ more)

end BlockLines

/-- Read lines that are indented to the column `indent`. -/
def readLines (isLiteral : Bool) (indent : Nat) :
    Nat → BlockLines → Cursor → Option (BlockLines × Cursor)
  | 0, _, _ => none
  | fuel + 1, lines, cursor =>
    if cursor.column ≠ indent ∨ cursor.isOver then some (lines, cursor)
    else
      let (lines, cursor) := lines.add isLiteral cursor
      if cursor.isOver then some (lines, cursor)
      else
        match toNextLine indent cursor.skipBreak with
        | none => none
        | some gap =>
          readLines isLiteral indent fuel
            { lines with hasBreak := true, emptyLines := gap.breaks }
            gap.cursor

/-- Read a scalar in a block, from its bar or angle on.  The lines around it
are indented to the column `outer`. -/
def readBlock (outer : Int) (cursor : Cursor) : Option (String × Cursor) := do
  let isLiteral := cursor.current = '|'
  let (header, cursor) ← readHeader (cursor.advance 1)
  let cursor := (cursor.skipWhile isSpace).skipComment
  if !isLineEnd cursor.current then none
  else
    let given :=
      if header.increment = 0 then 0 else (max outer 0).toNat + header.increment
    let gap ← toNextLine given cursor.skipBreak
    let indent :=
      if given = 0 then max gap.deepest (max (outer + 1).toNat 1) else given
    let (lines, cursor) ← readLines isLiteral indent
      (cursor.rest.length + 1) ⟨[], false, gap.breaks, false⟩ gap.cursor
    pure (lines.text header.chomping, cursor)

end JourneyTimes.Yaml
