import JourneyTimes.Yaml.Block
import JourneyTimes.Yaml.Plain
import JourneyTimes.Yaml.Property
import JourneyTimes.Yaml.Quoted

/-!
# Layout

This module turns the text of a configuration file into its tokens.

Lists and mappings outside brackets and braces are told by their indentation.
A scalar turns out to be a key only at the colon behind it; until then it is
remembered as a possible key, and the token that says so is put in front of
it later.  A possible key must be on the line of its colon and not more than
a thousand or so characters away from it.
-/

namespace JourneyTimes.Yaml

/-- A node that is a key if a colon follows. -/
structure PossibleKey where
  /-- The number of tokens in front of the node. -/
  position : Nat
  place : Place
  /-- Whether the node can be nothing but a key. -/
  isRequired : Bool
deriving Repr, DecidableEq

/-- How far a key may be away from its colon. -/
def keyReach : Nat := 1024

/-- Whether a colon at a place is too far away from a possible key. -/
def PossibleKey.isTooFar (key : PossibleKey) (place : Place) : Bool :=
  key.place.line < place.line || key.place.index + keyReach < place.index

/-- How deep brackets and braces may be nested. -/
def deepestFlow : Nat := 255

/-- What is known while tokens are read. -/
structure Layout where
  cursor : Cursor
  tokens : Array Token
  /-- The column of the innermost list or mapping outside brackets, or `-1`. -/
  indent : Int
  /-- The columns around it, the innermost first. -/
  outerIndents : List Int
  /-- The possible key inside the innermost brackets. -/
  key : Option PossibleKey
  /-- The possible keys around each pair of open brackets. -/
  outerKeys : List (Option PossibleKey)
  /-- Whether a key may begin here. -/
  allowsKey : Bool
  /-- The number of characters in front of the end of the last quotes. -/
  quoteEnd : Nat

namespace Layout

/-- The layout in front of a text. -/
def start (text : String) : Layout :=
  { cursor := .start text, tokens := #[], indent := -1, outerIndents := []
    key := none, outerKeys := [], allowsKey := true, quoteEnd := 0 }

/-- Whether the cursor is inside brackets or braces. -/
def inFlow (layout : Layout) : Bool := !layout.outerKeys.isEmpty

/-- The column of the cursor. -/
def column (layout : Layout) : Int := layout.cursor.column

/-- Add a token. -/
def push (layout : Layout) (token : Token) : Layout :=
  { layout with tokens := layout.tokens.push token }

/-- Add a token behind which the cursor goes on. -/
def pushUpTo (layout : Layout) (token : Token) (cursor : Cursor) : Layout :=
  { layout with tokens := layout.tokens.push token, cursor }

/-- Add the token of a mark of so many characters. -/
def pushMark (layout : Layout) (token : Token) (length : Nat) : Layout :=
  layout.pushUpTo token (layout.cursor.advance length)

/-- Skip blanks, comments and breaks of lines.  A tab is no indentation. -/
def skipBlanks : Nat → Layout → Layout
  | 0, layout => layout
  | fuel + 1, layout =>
    let character := layout.cursor.current
    if character = ' ' ∨
        (character = '\t' ∧ (layout.inFlow ∨ !layout.allowsKey)) then
      skipBlanks fuel { layout with cursor := layout.cursor.advance 1 }
    else if isBreak character then
      skipBlanks fuel
        { layout with
          cursor := layout.cursor.skipBreak
          allowsKey := layout.allowsKey || !layout.inFlow }
    else if character = '#' then
      skipBlanks fuel { layout with cursor := layout.cursor.skipComment }
    else layout

/-- Forget the possible key; a key that is required cannot be forgotten. -/
def dropKey (layout : Layout) : Option Layout :=
  if layout.key.any (·.isRequired) then none
  else some { layout with key := none }

/-- Forget a possible key if the cursor is too far away from it. -/
def expire (place : Place) :
    Option PossibleKey → Option (Option PossibleKey)
  | none => some none
  | some key =>
    if key.isTooFar place then if key.isRequired then none else some none
    else some (some key)

/-- Forget the possible keys that are too far away. -/
def expireKeys (layout : Layout) : Option Layout := do
  let key ← expire layout.cursor.place layout.key
  let outerKeys ← layout.outerKeys.mapM (expire layout.cursor.place)
  pure { layout with key, outerKeys }

/-- Remember that a key may begin here. -/
def noteKey (layout : Layout) : Option Layout :=
  if layout.allowsKey then do
    let layout ← layout.dropKey
    let key : PossibleKey :=
      { position := layout.tokens.size
        place := layout.cursor.place
        isRequired := layout.inFlow && layout.indent == layout.column }
    pure { layout with key := some key }
  else some layout

/-- Say whether a key may begin next. -/
def allowKey (layout : Layout) (allowsKey : Bool) : Layout :=
  { layout with allowsKey }

/-- Begin a list or mapping at a column if it is indented more than what is
around it.  Its token comes in front of the token with the given number. -/
def indentTo (layout : Layout) (column : Int) (position : Nat) (token : Token) :
    Layout :=
  if !layout.inFlow ∧ layout.indent < column then
    { layout with
      tokens := layout.tokens.insertIdxIfInBounds position token
      indent := column
      outerIndents := layout.indent :: layout.outerIndents }
  else layout

/-- Begin a list or mapping at the cursor. -/
def indentHere (layout : Layout) (token : Token) : Layout :=
  layout.indentTo layout.column layout.tokens.size token

/-- The indentation that is left at a column, and the ends of what was
indented more. -/
def unindent (column : Int) :
    Int → List Int → Array Token → Int × List Int × Array Token
  | indent, outer :: rest, tokens =>
    if column < indent then unindent column outer rest (tokens.push .blockEnd)
    else (indent, outer :: rest, tokens)
  | indent, [], tokens => (indent, [], tokens)

/-- End the lists and mappings that are indented more than a column. -/
def unindentTo (layout : Layout) (column : Int) : Layout :=
  if layout.inFlow then layout
  else
    let (indent, outerIndents, tokens) :=
      unindent column layout.indent layout.outerIndents layout.tokens
    { layout with indent, outerIndents, tokens }

/-- A directive. -/
def readDirective (layout : Layout) : Option Layout := do
  let layout ← (layout.unindentTo (-1)).dropKey
  let cursor ← skipDirective layout.cursor
  pure ((layout.allowKey false).pushUpTo .directive cursor)

/-- A line that begins or ends a document. -/
def readDocumentMark (layout : Layout) (token : Token) : Option Layout := do
  let layout ← (layout.unindentTo (-1)).dropKey
  pure ((layout.allowKey false).pushMark token 3)

/-- An opening bracket or brace, which may begin a key. -/
def openFlow (layout : Layout) (token : Token) : Option Layout := do
  let layout ← layout.noteKey
  if layout.outerKeys.length < deepestFlow then
    let inner :=
      { layout with key := none, outerKeys := layout.key :: layout.outerKeys }
    pure ((inner.allowKey true).pushMark token 1)
  else none

/-- A closing bracket or brace. -/
def closeFlow (layout : Layout) (token : Token) : Option Layout := do
  let layout ← layout.dropKey
  let outer := match layout.outerKeys with
    | [] => layout
    | key :: outerKeys => { layout with key, outerKeys }
  pure ((outer.allowKey false).pushMark token 1)

/-- A comma between items. -/
def readSeparator (layout : Layout) : Option Layout := do
  let layout ← layout.dropKey
  pure ((layout.allowKey true).pushMark .flowSeparator 1)

/-- The dash in front of an item of a list. -/
def readItem (layout : Layout) : Option Layout :=
  if layout.inFlow ∨ !layout.allowsKey then none
  else do
    let layout ← (layout.indentHere .blockListStart).dropKey
    pure ((layout.allowKey true).pushMark .blockItem 1)

/-- The question mark in front of a key that is not simple. -/
def readKeyMark (layout : Layout) : Option Layout :=
  if !layout.inFlow ∧ !layout.allowsKey then none
  else do
    let layout ← (layout.indentHere .blockMappingStart).dropKey
    pure ((layout.allowKey !layout.inFlow).pushMark .key 1)

/-- The colon in front of a value. -/
def readValueMark (layout : Layout) : Option Layout :=
  match layout.key with
  | some key =>
    let keyed :=
      { layout with
        tokens := layout.tokens.insertIdxIfInBounds key.position .key
        key := none
        allowsKey := false }
    let indented :=
      keyed.indentTo key.place.column key.position .blockMappingStart
    some (indented.pushMark .value 1)
  | none =>
    if !layout.inFlow ∧ !layout.allowsKey then none
    else
      let indented := layout.indentHere .blockMappingStart
      some ((indented.allowKey !layout.inFlow).pushMark .value 1)

/-- What may be the beginning of a key: read by `reader`, and not followed by
another key at once. -/
def readNode (layout : Layout) (reader : Cursor → Option (Token × Cursor)) :
    Option Layout := do
  let layout ← layout.noteKey
  let (token, cursor) ← reader layout.cursor
  pure ((layout.allowKey false).pushUpTo token cursor)

/-- A name behind an ampersand or an asterisk. -/
def readAnchor (layout : Layout) (token : String → Token) : Option Layout :=
  layout.readNode fun cursor => do
    let (name, cursor) ← readAnchorName cursor
    pure (token name, cursor)

/-- A tag. -/
def readTagged (layout : Layout) : Option Layout :=
  layout.readNode fun cursor => do
    let (tag, cursor) ← readTag cursor
    pure (.tag tag, cursor)

/-- A scalar in quotes.  A colon may follow it without a blank. -/
def readQuotedScalar (layout : Layout) : Option Layout := do
  let layout ← layout.readNode fun cursor => do
    let (text, cursor) ← readQuoted cursor
    pure (.verbatim text, cursor)
  pure { layout with quoteEnd := layout.cursor.place.index }

/-- A scalar in a block, behind which a key may begin. -/
def readBlockScalar (layout : Layout) : Option Layout := do
  let layout ← layout.readNode fun cursor => do
    let (text, cursor) ← readBlock layout.indent cursor
    pure (.verbatim text, cursor)
  pure (layout.allowKey true)

/-- A scalar without quotes.  If breaks of lines follow it, a key may begin
behind them. -/
def readPlainScalar (layout : Layout) : Option Layout := do
  let layout ← layout.noteKey
  let plain ← readPlain layout.inFlow (layout.indent + 1) layout.cursor
  pure ((layout.allowKey plain.isBehindBreak).pushUpTo
    (.plain plain.text) plain.cursor)

/-- Whether the colon at the cursor stands in front of a value. -/
def isAtValue (layout : Layout) (next : Char) : Bool :=
  isWordEnd next || layout.inFlow &&
    (isFlowMark next || layout.cursor.place.index == layout.quoteEnd)

/-- Read what is at the cursor. -/
def readToken (layout : Layout) : Option Layout :=
  let cursor := layout.cursor
  let next := cursor.peek 1
  if cursor.column = 0 ∧ cursor.current = '%' then layout.readDirective
  else if cursor.isAtMarkLine '-' then layout.readDocumentMark .documentStart
  else if cursor.isAtMarkLine '.' then layout.readDocumentMark .documentEnd
  else match cursor.current with
    | '[' => layout.openFlow .flowListStart
    | '\x7b' => layout.openFlow .flowMappingStart
    | ']' => layout.closeFlow .flowListEnd
    | '\x7d' => layout.closeFlow .flowMappingEnd
    | ',' => layout.readSeparator
    | '-' =>
      if isWordEnd next then layout.readItem else layout.readPlainScalar
    | '?' =>
      if isWordEnd next then layout.readKeyMark else layout.readPlainScalar
    | ':' =>
      if layout.isAtValue next then layout.readValueMark
      else layout.readPlainScalar
    | '*' => layout.readAnchor .reference
    | '&' => layout.readAnchor .anchor
    | '!' => layout.readTagged
    | '|' | '>' =>
      if layout.inFlow then layout.readPlainScalar else layout.readBlockScalar
    | '\'' | '"' => layout.readQuotedScalar
    | '%' | '@' | '\x60' => none
    | _ => layout.readPlainScalar

/-- The end of the text. -/
def finish (layout : Layout) : Option (Array Token) := do
  let layout ← (layout.unindentTo (-1)).dropKey
  pure (layout.tokens.push .ending)

/-- Read the tokens that are left; `fuel` bounds their number. -/
def readTokens : Nat → Layout → Option (Array Token)
  | 0, _ => none
  | fuel + 1, layout =>
    match (skipBlanks (layout.cursor.rest.length + 1) layout).expireKeys with
    | none => none
    | some layout =>
      let layout := layout.unindentTo layout.column
      if layout.cursor.isOver then layout.finish
      else
        match layout.readToken with
        | none => none
        | some layout => readTokens fuel layout

end Layout

/-- The tokens of a configuration file; none if it is malformed. -/
def tokens (text : String) : Option (Array Token) :=
  Layout.readTokens (text.length + 1) (Layout.start text)

end JourneyTimes.Yaml
