import JourneyTimes.Text.WholeNumber
import JourneyTimes.Yaml.Cursor
import JourneyTimes.Yaml.Token

/-!
# Tags, anchors and directives

In front of a node may stand a tag, which names its kind, and an anchor, by
which other places refer to it.  Directives are lines for the reader of the
file; they have to be well-formed but change nothing.
-/

namespace JourneyTimes.Yaml

/-- Whether a character may stand in the kind of a tag. -/
def isKindCharacter (character : Char) : Bool :=
  isNameCharacter character || ";/?:@&=+$,.!~*'()[]".toList.contains character

/-- The octet that a percent sign and two hexadecimal digits stand for. -/
def readOctet (cursor : Cursor) : Option (Nat × Cursor) :=
  if cursor.current = '%' then
    match WholeNumber.digit? 16 (cursor.peek 1),
        WholeNumber.digit? 16 (cursor.peek 2) with
    | some high, some low => some (16 * high + low, cursor.advance 3)
    | _, _ => none
  else none

/-- The number of octets of an escaped character, told by its first one. -/
def octetCount (first : Nat) : Option Nat :=
  if first < 0x80 then some 1
  else if first < 0xc0 then none
  else if first < 0xe0 then some 2
  else if first < 0xf0 then some 3
  else if first < 0xf8 then some 4
  else none

/-- Read the octets behind the first, put together as digits. -/
def readOctets : Nat → Nat → Cursor → Option (Nat × Cursor)
  | 0, code, cursor => some (code, cursor)
  | count + 1, code, cursor =>
    match readOctet cursor with
    | some (octet, cursor) =>
      if 0x80 ≤ octet ∧ octet < 0xc0 then
        readOctets count (0x100 * code + octet) cursor
      else none
    | none => none

/-- Read an escaped character of a kind. -/
def readKindEscape (cursor : Cursor) : Option (Char × Cursor) := do
  let (first, cursor) ← readOctet cursor
  let count ← octetCount first
  let (code, cursor) ← readOctets (count - 1) first cursor
  if code.isValidChar then pure (Char.ofNat code, cursor) else none

/-- Read the characters of a kind onto those read so far, which come with the
latest first. -/
def readKind : Nat → List Char → Cursor → Option (List Char × Cursor)
  | 0, _, _ => none
  | fuel + 1, read, cursor =>
    if cursor.current = '%' then
      match readKindEscape cursor with
      | some (character, cursor) => readKind fuel (character :: read) cursor
      | none => none
    else if isKindCharacter cursor.current then
      readKind fuel (cursor.current :: read) (cursor.advance 1)
    else some (read.reverse, cursor)

/-- Read a kind behind its first characters. -/
def readKindBehind (first : List Char) (cursor : Cursor) :
    Option (List Char × Cursor) :=
  readKind (cursor.rest.length + 1) first.reverse cursor

/-- Read a kind that has a character at least. -/
def readWholeKind (cursor : Cursor) : Option (List Char × Cursor) :=
  match readKindBehind [] cursor with
  | some ([], _) => none
  | result => result

/-- Read the handle of a tag: a name behind an exclamation mark, which may end
with another one. -/
def readHandle (cursor : Cursor) : Option (List Char × Cursor) :=
  if cursor.current = '!' then
    let (name, cursor) := (cursor.advance 1).span isNameCharacter
    if cursor.current = '!' then
      some ('!' :: name ++ ['!'], cursor.advance 1)
    else some ('!' :: name, cursor)
  else none

/-- Whether a handle ends with an exclamation mark of its own. -/
def isClosedHandle (handle : List Char) : Bool :=
  2 ≤ handle.length && handle.getLast? == some '!'

/-- A tag between angles. -/
def readVerbatimTag (cursor : Cursor) : Option (Tag × Cursor) := do
  let (kind, cursor) ← readWholeKind (cursor.advance 2)
  if cursor.current = '>' then
    pure (⟨"", String.ofList kind⟩, cursor.advance 1)
  else none

/-- A tag with a handle.  If what looks like a handle does not end like one,
it belongs to the kind. -/
def readShortTag (cursor : Cursor) : Option (Tag × Cursor) := do
  let (handle, cursor) ← readHandle cursor
  if isClosedHandle handle then
    let (kind, cursor) ← readWholeKind cursor
    pure (⟨String.ofList handle, String.ofList kind⟩, cursor)
  else
    let (kind, cursor) ← readKindBehind (handle.drop 1) cursor
    if kind.isEmpty then pure (⟨"", "!"⟩, cursor)
    else pure (⟨"!", String.ofList kind⟩, cursor)

/-- Read a tag; a blank follows it. -/
def readTag (cursor : Cursor) : Option (Tag × Cursor) := do
  let (tag, cursor) ←
    if cursor.peek 1 = '<' then readVerbatimTag cursor else readShortTag cursor
  if isWordEnd cursor.current then pure (tag, cursor) else none

/-- Read the name of an anchor or of a reference to one, from the mark in
front of it on. -/
def readAnchorName (cursor : Cursor) : Option (String × Cursor) :=
  let (name, cursor) := (cursor.advance 1).span isNameCharacter
  if name ≠ [] ∧ (isWordEnd cursor.current ∨
      ['?', ':', ',', ']', '\x7d', '%', '@', '\x60'].contains cursor.current)
  then some (String.ofList name, cursor)
  else none

/-- Skip a number of a version, which has nine digits at most. -/
def skipVersionNumber (cursor : Cursor) : Option Cursor :=
  let (digits, cursor) := cursor.span Char.isDigit
  if 1 ≤ digits.length ∧ digits.length ≤ 9 then some cursor else none

/-- Skip the version that a directive names. -/
def skipVersion (cursor : Cursor) : Option Cursor := do
  let cursor ← skipVersionNumber (cursor.skipWhile isSpace)
  if cursor.current = '.' then skipVersionNumber (cursor.advance 1) else none

/-- Skip the handle and the kind that a directive names. -/
def skipTagDefinition (cursor : Cursor) : Option Cursor := do
  let (handle, cursor) ← readHandle (cursor.skipWhile isSpace)
  if handle ≠ ['!'] ∧ !isClosedHandle handle then none
  else
    let (_, cursor) ← readWholeKind (cursor.skipWhile isSpace)
    if isWordEnd cursor.current then some cursor else none

/-- Skip a directive, from its percent sign on, with the line it is in. -/
def skipDirective (cursor : Cursor) : Option Cursor := do
  let (name, cursor) := (cursor.advance 1).span isNameCharacter
  if name = [] ∨ !isWordEnd cursor.current then none
  else
    let cursor ←
      if name = ['Y', 'A', 'M', 'L'] then skipVersion cursor
      else if name = ['T', 'A', 'G'] then skipTagDefinition cursor
      else some (cursor.skipWhile fun c => !isLineEnd c)
    let cursor := (cursor.skipWhile isSpace).skipComment
    if isLineEnd cursor.current then some cursor.skipBreak else none

end JourneyTimes.Yaml
