import JourneyTimes.Markup.Name
import JourneyTimes.Text.WholeNumber

/-!
# References

A reference stands for characters: for one given by its number, for one of the
five with names that every document knows, or for what the document declares
an entity to be.
-/

namespace JourneyTimes.Markup

/-- What the declared entities stand for. -/
abbrev Entities := List (String × List Char)

/-- The character of a numeric reference, after its number sign. -/
def numericReference? (digits : List Char) : Option Char := do
  let code ← match digits with
    | 'x' :: digits => (WholeNumber.readDigits 16 0x10ffff 0 digits).toOption
    | digits => (WholeNumber.readDigits 10 0x10ffff 0 digits).toOption
  if digits = [] ∨ digits = ['x'] ∨ ¬ code.isValidChar then none
  else
    let character := Char.ofNat code
    if isAllowed character then some character else none

/-- What the predefined entities stand for. -/
def predefined : Entities :=
  [("lt", ['<']), ("gt", ['>']), ("amp", ['&']), ("apos", ['\'']),
    ("quot", ['"'])]

/-- What a reference stands for.  The flag tells whether it is a declared
entity, whose replacement is read again. -/
def resolve? (entities : Entities) (name : List Char) :
    Option (List Char × Bool) :=
  match name with
  | '#' :: digits => (numericReference? digits).map fun character => ([character], false)
  | name =>
    match predefined.lookup (String.ofList name) with
    | some characters => some (characters, false)
    | none => (entities.lookup (String.ofList name)).map fun characters => (characters, true)

/-- Read a reference from behind its ampersand: what it stands for, and the
rest of the text. -/
def readReference (entities : Entities) (text : List Char) :
    Option ((List Char × Bool) × List Char) := do
  let isPart (character : Char) : Bool :=
    character = '#' || isNameCharacter character
  match text.span isPart with
  | (name, ';' :: rest) =>
    let startsWell := match name with
      | [] => false
      | first :: others =>
        (first = '#' || first = ':' || isNameStart first) && !others.contains '#'
    if startsWell then
      let found ← resolve? entities name
      pure (found, rest)
    else none
  | _ => none

end JourneyTimes.Markup
