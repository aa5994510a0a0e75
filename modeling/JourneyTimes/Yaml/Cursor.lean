/-!
# Cursors

Reading a configuration file goes by lines and columns, because indentation
tells which lines belong together.  A cursor is the text that is still to be
read, with the place where it begins.

The end of the text reads as a character that never occurs in it, so that a
reader can look ahead without asking how much is left.
-/

namespace JourneyTimes.Yaml

/-- A place in a text. -/
structure Place where
  /-- The number of characters in front of it. -/
  index : Nat
  line : Nat
  column : Nat
deriving Repr, DecidableEq

/-- What is left of a text, and where it begins. -/
structure Cursor where
  rest : List Char
  place : Place
deriving Repr

/-- The character that stands for the end of the text. -/
def ending : Char := '\x00'

/-- Whether a character ends a line. -/
def isBreak (character : Char) : Bool :=
  character == '\n' || character == '\r'

/-- Whether a line is over at a character. -/
def isLineEnd (character : Char) : Bool :=
  isBreak character || character == ending

/-- Whether a character separates words of a line. -/
def isSpace (character : Char) : Bool :=
  character == ' ' || character == '\t'

/-- Whether a word is over at a character. -/
def isWordEnd (character : Char) : Bool :=
  isSpace character || isLineEnd character

/-- Whether a character may stand in a name. -/
def isNameCharacter (character : Char) : Bool :=
  character.isAlphanum || character == '_' || character == '-'

/-- Whether a character is a bracket, a brace or the comma between items. -/
def isFlowMark (character : Char) : Bool :=
  character == ',' || character == '[' || character == ']' ||
    character == '\x7b' || character == '\x7d'

namespace Cursor

/-- The cursor at the beginning of a text. -/
def start (text : String) : Cursor := ⟨text.toList, ⟨0, 1, 0⟩⟩

/-- The character a number of places ahead. -/
def peek (cursor : Cursor) (ahead : Nat) : Char :=
  cursor.rest.getD ahead ending

/-- The character at the cursor. -/
def current (cursor : Cursor) : Char := cursor.peek 0

/-- Whether the text is over. -/
def isOver (cursor : Cursor) : Bool := cursor.current == ending

/-- The column of the cursor. -/
def column (cursor : Cursor) : Nat := cursor.place.column

/-- The place behind a character. -/
def placeBehind (place : Place) (character : Char) : Place :=
  if character = '\n' then ⟨place.index + 1, place.line + 1, 0⟩
  else ⟨place.index + 1, place.line, place.column + 1⟩

/-- Go on by a number of characters. -/
def advance (cursor : Cursor) (count : Nat) : Cursor :=
  ⟨cursor.rest.drop count,
    (cursor.rest.take count).foldl placeBehind cursor.place⟩

/-- The characters up to the first that is not accepted, and the cursor
there. -/
def span (cursor : Cursor) (accept : Char → Bool) : List Char × Cursor :=
  let accepted := cursor.rest.takeWhile accept
  (accepted, cursor.advance accepted.length)

/-- Go on to the first character that is not accepted. -/
def skipWhile (cursor : Cursor) (accept : Char → Bool) : Cursor :=
  (cursor.span accept).2

/-- Go on behind the break of a line, if there is one. -/
def skipBreak (cursor : Cursor) : Cursor :=
  if cursor.peek 0 = '\r' ∧ cursor.peek 1 = '\n' then cursor.advance 2
  else if isBreak cursor.current then cursor.advance 1
  else cursor

/-- Go on to the end of the line if a comment begins here. -/
def skipComment (cursor : Cursor) : Cursor :=
  if cursor.current = '#' then cursor.skipWhile fun c => !isLineEnd c
  else cursor

/-- Whether three of a mark stand at the beginning of a line as a word. -/
def isAtMarkLine (cursor : Cursor) (mark : Char) : Bool :=
  cursor.column == 0 && cursor.peek 0 == mark && cursor.peek 1 == mark &&
    cursor.peek 2 == mark && isWordEnd (cursor.peek 3)

/-- Whether a line that begins or ends a document starts here. -/
def isAtDocumentMark (cursor : Cursor) : Bool :=
  cursor.isAtMarkLine '-' || cursor.isAtMarkLine '.'

end Cursor

end JourneyTimes.Yaml
