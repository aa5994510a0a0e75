import JourneyTimes.Markup.Element
import JourneyTimes.Markup.Skipped

/-!
# Document types

A document may say in front of its first element what type it is of.  Only the
entities declared there matter; everything else is skipped.
-/

namespace JourneyTimes.Markup

/-- The parts of a declaration of the document type. -/
inductive DeclarationPart where
  | done
  | skipped
  | entity (name : String) (replacement : List Char)

/-- Skip to a character and past it. -/
def skipPast (mark : Char) (text : List Char) : Option (List Char) :=
  match text.dropWhile (· != mark) with
  | _ :: rest => some rest
  | [] => none

/-- Resolve the numeric references in the replacement of an entity; `fuel`
bounds the length. -/
def resolveNumeric : Nat → List Char → Option (List Char)
  | 0, _ => none
  | _, [] => some []
  | fuel + 1, '&' :: '#' :: rest =>
    match rest.span (· != ';') with
    | (digits, _ :: rest) => do
      let character ← numericReference? digits
      let others ← resolveNumeric fuel rest
      pure (character :: others)
    | _ => none
  | fuel + 1, character :: rest => do
    let others ← resolveNumeric fuel rest
    if isAllowed character then pure (character :: others) else none

/-- Read the declaration of an entity from behind its keyword. -/
def readEntity (text : List Char) : Option (DeclarationPart × List Char) := do
  match skipBlanks text with
  | '%' :: rest => pure (.skipped, ← skipPast '>' rest)
  | text =>
    let (name, rest) ← readName text
    match skipBlanks rest with
    | 'S' :: rest => pure (.entity name.localName [], ← skipPast '>' rest)
    | 'P' :: rest => pure (.entity name.localName [], ← skipPast '>' rest)
    | quote :: rest =>
      if quote = '"' ∨ quote = '\'' then
        match rest.span (· != quote) with
        | (value, _ :: rest) =>
          let replacement ← resolveNumeric (value.length + 1) value
          pure (.entity name.localName replacement, ← skipPast '>' rest)
        | _ => none
      else none
    | [] => none

/-- Read a declaration inside a document type from behind its opening. -/
def readDeclaration (text : List Char) :
    Option (DeclarationPart × List Char) := do
  let (keyword, rest) := text.span Char.isUpper
  if ¬ rest.head?.any isBlank then none
  else if keyword = ['E', 'N', 'T', 'I', 'T', 'Y'] then readEntity rest
  else if [['E', 'L', 'E', 'M', 'E', 'N', 'T'],
      ['A', 'T', 'T', 'L', 'I', 'S', 'T'],
      ['N', 'O', 'T', 'A', 'T', 'I', 'O', 'N']].contains keyword then
    pure (.skipped, ← skipPast '>' rest)
  else none

/-- Read one part of a document type. -/
def readTypePart : List Char → Option (DeclarationPart × List Char)
  | [] => none
  | '>' :: rest => some (.done, rest)
  | '<' :: '!' :: '-' :: '-' :: rest => do pure (.skipped, ← skipComment rest)
  | '<' :: '!' :: rest => readDeclaration rest
  | '<' :: '?' :: rest => do pure (.skipped, ← skipInstruction rest)
  | character :: rest =>
    if character = '"' ∨ character = '\'' then do
      pure (.skipped, ← skipPast character rest)
    else if isAllowed character then some (.skipped, rest)
    else none

/-- Read a document type from behind its keyword, collecting entities.  The
first declaration of an entity counts. -/
def readType : Nat → Entities → List Char → Option (Entities × List Char)
  | 0, _, _ => none
  | fuel + 1, entities, text =>
    match readTypePart text with
    | some (.done, rest) => some (entities, rest)
    | some (.skipped, rest) => readType fuel entities rest
    | some (.entity name replacement, rest) =>
      readType fuel (entities ++ [(name, replacement)]) rest
    | none => none

end JourneyTimes.Markup
