import JourneyTimes.Markup.Character

/-!
# Names in markup

Elements and attributes have names.  A name may have one colon; what stands in
front of it says which name space the name belongs to.
-/

namespace JourneyTimes.Markup

/-- A name, with what stands in front of its colon. -/
structure Name where
  space : Option String
  localName : String
deriving Repr, DecidableEq

/-- Whether a character can be part of a name with a colon. -/
def isNameCharacter (character : Char) : Bool :=
  character = ':' || isNamePart character

/-- The name of some characters: at most one colon, neither first nor last,
and a beginning that is allowed. -/
def Name.ofChars? (characters : List Char) : Option Name :=
  match characters with
  | [] => none
  | first :: _ =>
    if !isNameStart first then none
    else
      match (characters.span (· != ':')) with
      | (name, []) => some ⟨none, String.ofList name⟩
      | (space, _ :: name) =>
        if name.isEmpty || name.contains ':' then none
        else some ⟨some (String.ofList space), String.ofList name⟩

/-- Read a name from the front of a text. -/
def readName (text : List Char) : Option (Name × List Char) :=
  let (characters, rest) := text.span isNameCharacter
  (Name.ofChars? characters).map fun name => (name, rest)

end JourneyTimes.Markup
