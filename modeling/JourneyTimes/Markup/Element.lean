import JourneyTimes.Markup.Event
import JourneyTimes.Markup.Reference

/-!
# Starts and ends of elements

An element starts with its name and its attributes in angle brackets.  Values
of attributes are in quotes, and references in them are resolved.  Some
attributes declare name spaces; these are known in the element and all
elements inside it, and the names of the element and of its attributes may
only use name spaces that are known.
-/

namespace JourneyTimes.Markup

/-- Skip blanks. -/
def skipBlanks (text : List Char) : List Char := text.dropWhile isBlank

/-- Read the value of an attribute up to its closing quote; the characters so
far come with the latest first. -/
def readValue (entities : Entities) (quote : Char) :
    Nat → List Char → List Char → Option (String × List Char)
  | 0, _, _ => none
  | _, _, [] => none
  | fuel + 1, value, character :: rest =>
    if character = quote then some (String.ofList value.reverse, rest)
    else if character = '<' then none
    else if character = '&' then
      match readReference entities rest with
      | some ((characters, _), rest) =>
        readValue entities quote fuel (characters.reverse ++ value) rest
      | none => none
    else if isAllowed character then
      readValue entities quote fuel (character :: value) rest
    else none

/-- An attribute with its full name. -/
structure NamedValue where
  name : Name
  value : String
deriving Repr, DecidableEq

/-- Read an attribute: a name, an equals sign and a value in quotes. -/
def readAttribute (entities : Entities) (text : List Char) :
    Option (NamedValue × List Char) := do
  let (name, rest) ← readName text
  match skipBlanks rest with
  | '=' :: rest =>
    match skipBlanks rest with
    | quote :: rest =>
      if quote = '"' ∨ quote = '\'' then
        let (value, rest) ← readValue entities quote (rest.length + 1) [] rest
        pure (⟨name, value⟩, rest)
      else none
    | [] => none
  | _ => none

/-- The end of the start of an element: whether the element is empty, and the
rest of the text. -/
def readTagEnd : List Char → Option (Bool × List Char)
  | '>' :: rest => some (false, rest)
  | '/' :: '>' :: rest => some (true, rest)
  | _ => none

/-- Read attributes up to the end of the start of an element.  There must be
blanks in front of every attribute. -/
def readAttributes (entities : Entities) :
    Nat → List NamedValue → List Char →
      Option (List NamedValue × Bool × List Char)
  | 0, _, _ => none
  | fuel + 1, attributes, text =>
    match readTagEnd (skipBlanks text) with
    | some (isEmpty, rest) => some (attributes.reverse, isEmpty, rest)
    | none =>
      if text.head?.any isBlank then
        match readAttribute entities (skipBlanks text) with
        | some (item, rest) =>
          readAttributes entities fuel (item :: attributes) rest
        | none => none
      else none

/-- The name in front of the colon of declarations of name spaces. -/
def declarationSpace : String := "xmlns"

/-- Whether an attribute declares a name space, and is not one of the
element's own. -/
def NamedValue.isDeclaration (item : NamedValue) : Bool :=
  item.name.space == some declarationSpace ||
    item.name == ⟨none, declarationSpace⟩

/-- The addresses that belong to the two name spaces every document knows. -/
def reservedAddresses : List String :=
  ["xml", "xmlns", "http://www.w3.org/XML/1998/namespace",
    "http://www.w3.org/2000/xmlns/"]

/-- Whether a declaration of a name space is allowed. -/
def NamedValue.isGoodDeclaration (item : NamedValue) : Bool :=
  match item.name.space with
  | none => !reservedAddresses.contains item.value
  | some _ =>
    item.name.localName != "xmlns" && item.value != "" &&
      (item.name.localName != "xml" ||
        item.value == "http://www.w3.org/XML/1998/namespace")

/-- The name spaces that some attributes declare. -/
def declaredSpaces (attributes : List NamedValue) : List String :=
  attributes.filterMap fun item =>
    if item.name.space == some declarationSpace then
      some item.name.localName
    else none

/-- Whether the part of a name in front of its colon is known. -/
def Name.isBound (spaces : List String) (name : Name) : Bool :=
  match name.space with
  | none => true
  | some space => spaces.contains space

/-- Whether a list of attributes has a name twice. -/
def hasRepeatedName : List NamedValue → Bool
  | [] => false
  | item :: rest =>
    rest.any (fun other => other.name == item.name) || hasRepeatedName rest

/-- The start of an element as it was read. -/
structure Opening where
  name : Name
  attributes : List NamedValue
  isEmpty : Bool
  /-- The name spaces known inside the element. -/
  spaces : List String

/-- Read the start of an element from behind its angle bracket. -/
def readOpening (entities : Entities) (spaces : List String)
    (text : List Char) : Option (Opening × List Char) := do
  let (name, rest) ← readName text
  let (all, isEmpty, rest) ← readAttributes entities (rest.length + 1) [] rest
  let (declarations, attributes) := all.partition NamedValue.isDeclaration
  let inner := declaredSpaces declarations ++ spaces
  if name.space = some "xml" ∨ name.space = some declarationSpace then none
  else if hasRepeatedName attributes ∨
      ¬ declarations.all NamedValue.isGoodDeclaration ∨
      ¬ name.isBound inner ∨
      ¬ attributes.all (fun item => item.name.isBound inner) then none
  else pure (⟨name, attributes, isEmpty, inner⟩, rest)

/-- The event of the start of an element. -/
def Opening.event (opening : Opening) : Event :=
  .elementStart opening.name.localName
    (opening.attributes.map fun item =>
      ⟨item.name.localName, item.value⟩)

/-- Read the end of an element from behind its angle bracket and slash. -/
def readClosing (text : List Char) : Option (Name × List Char) := do
  let (name, rest) ← readName text
  match skipBlanks rest with
  | '>' :: rest => pure (name, rest)
  | _ => none

end JourneyTimes.Markup
