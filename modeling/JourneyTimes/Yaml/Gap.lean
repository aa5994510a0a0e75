import JourneyTimes.Yaml.Cursor

/-!
# Gaps between words

A scalar may go over several lines.  Within a line the blanks between two
words belong to the text.  A single break of a line stands for one blank, and
of several breaks the first does not count; blanks around breaks never count.
-/

namespace JourneyTimes.Yaml

/-- What stands between two words of a scalar. -/
structure Gap where
  /-- The blanks of a gap within a line. -/
  blanks : List Char
  /-- The number of lines that end in the gap. -/
  breaks : Nat
deriving Repr, DecidableEq

namespace Gap

/-- The gap in front of the first word. -/
def empty : Gap := ⟨[], 0⟩

/-- The text that a gap stands for. -/
def text (gap : Gap) : List Char :=
  match gap.breaks with
  | 0 => gap.blanks
  | 1 => [' ']
  | breaks + 1 => List.replicate breaks '\n'

/-- The text of a gap behind a break of a line that was escaped: every break
counts, and blanks do not. -/
def textBehindEscape (gap : Gap) : List Char :=
  List.replicate gap.breaks '\n'

/-- Read on in a gap.  Blanks are dropped at the beginning of a line; a tab
there must stand at the column `indent` at least.  `fuel` bounds the number of
characters. -/
def readOn (isLineStart : Bool) (indent : Int) :
    Nat → Gap → Cursor → Option (Gap × Cursor)
  | 0, gap, cursor => some (gap, cursor)
  | fuel + 1, gap, cursor =>
    if isBreak cursor.current then
      readOn isLineStart indent fuel ⟨[], gap.breaks + 1⟩ cursor.skipBreak
    else if isSpace cursor.current then
      if isLineStart ∨ 0 < gap.breaks then
        if cursor.current = '\t' ∧ (cursor.column : Int) < indent then none
        else readOn isLineStart indent fuel gap (cursor.advance 1)
      else
        readOn isLineStart indent fuel
          { gap with blanks := gap.blanks ++ [cursor.current] }
          (cursor.advance 1)
    else some (gap, cursor)

/-- Read a gap. -/
def read (isLineStart : Bool) (indent : Int) (cursor : Cursor) :
    Option (Gap × Cursor) :=
  readOn isLineStart indent (cursor.rest.length + 1) empty cursor

end Gap

end JourneyTimes.Yaml
