import JourneyTimes.Markup.Declaration
import JourneyTimes.Markup.DocumentType
import JourneyTimes.Markup.Event

/-!
# Reading documents

This module turns the text of a document into its events.  The reader goes
through the document step by step and remembers which elements are open.

Comments vanish, and the text on both sides of one belongs together.  What a
declared entity stands for is read in place of the reference to it.
-/

namespace JourneyTimes.Markup

/-- How far a document has come. -/
inductive Stage where
  /-- At its first character. -/
  | nothing
  /-- Behind something, before the document type. -/
  | begun
  /-- Behind the document type, before the first element. -/
  | typed
  /-- Behind the beginning of the first element. -/
  | rooted
deriving Repr, DecidableEq

/-- An element that has begun, with the name spaces known inside it. -/
structure OpenElement where
  name : Name
  spaces : List String
deriving Repr, DecidableEq

/-- What is known while a document is read. -/
structure Reader where
  rest : List Char
  stage : Stage
  entities : Entities
  /-- The elements that have not ended, the innermost first. -/
  stack : List OpenElement
  /-- The characters of the current text, the latest first. -/
  text : List Char

/-- What reading on leads to. -/
inductive Step where
  | silent (reader : Reader)
  | emit (events : List Event) (reader : Reader)
  | over (isWellFormed : Bool)

namespace Reader

/-- The name spaces that every document knows. -/
def knownSpaces : List String := ["xml", "xmlns"]

/-- The name spaces known where the reader is. -/
def spaces (reader : Reader) : List String :=
  match reader.stack with
  | [] => knownSpaces
  | innermost :: _ => innermost.spaces

/-- A document has begun. -/
def begin (reader : Reader) : Reader :=
  { reader with
    stage := if reader.stage = .nothing then .begun else reader.stage }

/-- The event of the current text, when markup follows. -/
def textEvent (reader : Reader) : Event :=
  if reader.text.all isBlank then .other
  else .characters (String.ofList reader.text.reverse)

/-- The start of an element, and its end if it is empty. -/
def openElement (reader : Reader) (text : List Char) : Step :=
  if reader.stack.isEmpty ∧ reader.stage = .rooted then .over false
  else
    match readOpening reader.entities reader.spaces text with
    | none => .over false
    | some (opening, rest) =>
      let reader := { reader with rest, stage := .rooted }
      if opening.isEmpty then
        .emit [opening.event, .elementEnd opening.name.localName] reader
      else
        .emit [opening.event]
          { reader with
            stack := ⟨opening.name, opening.spaces⟩ :: reader.stack }

/-- The end of the innermost element. -/
def closeElement (reader : Reader) (text : List Char) : Step :=
  match readClosing text, reader.stack with
  | some (name, rest), innermost :: outer =>
    if name = innermost.name then
      .emit [.elementEnd name.localName] { reader with rest, stack := outer }
    else .over false
  | _, _ => .over false

/-- A processing instruction, or the declaration of the document at its very
beginning. -/
def readInstruction (reader : Reader) (text : List Char) : Step :=
  match readName text with
  | none => .over false
  | some (name, rest) =>
    if name.localName.toLower = "xml" ∧ name.space = none then
      if reader.stage = .nothing ∧ name.localName = "xml" then
        match readDocumentDeclaration (rest.length + 1) [] rest with
        | some rest => .silent { reader.begin with rest }
        | none => .over false
      else .over false
    else if rest.head?.any isBlank ∨ (after? ['?', '>'] rest).isSome then
      match skipInstruction rest with
      | some rest => .emit [.other] { reader.begin with rest }
      | none => .over false
    else .over false

/-- A document type, in front of the first element. -/
def readDocumentType (reader : Reader) (text : List Char) : Step :=
  if reader.stage = .typed ∨ reader.stage = .rooted then .over false
  else
    match readType (text.length + 1) reader.entities text with
    | some (entities, rest) => .silent { reader with rest, entities, stage := .typed }
    | none => .over false

/-- Markup that begins with an exclamation mark, apart from comments. -/
def readSpecial (reader : Reader) (text : List Char) : Step :=
  match after? ['D', 'O', 'C', 'T', 'Y', 'P', 'E'] text with
  | some rest => reader.readDocumentType rest
  | none =>
    match after? ['[', 'C', 'D', 'A', 'T', 'A', '['] text with
    | some rest =>
      if reader.stack.isEmpty then .over false
      else
        match skipVerbatim rest with
        | some rest => .emit [.other] { reader with rest }
        | none => .over false
    | none => .over false

/-- Markup from behind its angle bracket. -/
def readMarkup (reader : Reader) : List Char → Step
  | '?' :: rest => reader.readInstruction rest
  | '/' :: rest => reader.closeElement rest
  | '!' :: rest => reader.readSpecial rest
  | text => reader.openElement text

/-- A reference in the text of an element.  What a declared entity stands for
is read in its place. -/
def readTextReference (reader : Reader) (text : List Char) : Step :=
  if reader.stack.isEmpty then .over false
  else
    match readReference reader.entities text with
    | some ((characters, false), rest) =>
      .silent { reader with rest, text := characters.reverse ++ reader.text }
    | some ((characters, true), rest) =>
      .silent { reader with rest := characters ++ rest }
    | none => .over false

/-- A character of text.  Outside all elements only blanks are allowed, and
they do not count. -/
def readCharacter (reader : Reader) (character : Char) (rest : List Char) :
    Step :=
  if !isAllowed character then .over false
  else if reader.stack.isEmpty then
    if isBlank character then .silent { reader.begin with rest } else .over false
  else .silent { reader with rest, text := character :: reader.text }

/-- Read on. -/
def step (reader : Reader) : Step :=
  match reader.rest with
  | [] => .over (reader.stack.isEmpty && reader.stage == .rooted)
  | '<' :: '!' :: '-' :: '-' :: rest =>
    match skipComment rest with
    | some rest => .silent { reader.begin with rest }
    | none => .over false
  | '<' :: rest =>
    if reader.text.isEmpty then reader.readMarkup rest
    else .emit [reader.textEvent] { reader with text := [] }
  | '&' :: rest => reader.readTextReference rest
  | ']' :: ']' :: '>' :: _ => .over false
  | character :: rest => reader.readCharacter character rest

/-- All events from here on; `fuel` bounds the number of steps. -/
def events : Nat → Reader → List Event
  | 0, _ => [.malformed]
  | fuel + 1, reader =>
    match reader.step with
    | .silent next => events fuel next
    | .over isWellFormed => [if isWellFormed then .documentEnd else .malformed]
    | .emit emitted next => emitted ++ events fuel next

end Reader

/-- The number of steps spent on the replacements of entities at most. -/
def replacementSteps : Nat := 1000000

/-- The events of a document.  A byte order mark in front of it does not
count. -/
def events (document : String) : List Event :=
  let rest := match document.toList with
    | '\ufeff' :: rest => rest
    | characters => characters
  Reader.events (2 * rest.length + 2 + replacementSteps)
    { rest, stage := .nothing, entities := [], stack := [], text := [] }

end JourneyTimes.Markup
