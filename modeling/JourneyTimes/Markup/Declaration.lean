import JourneyTimes.Markup.Element

/-!
# The declaration of a document

At its very beginning a document may declare which version of the markup it is
written in, how its characters are encoded, and whether it stands alone.
-/

namespace JourneyTimes.Markup

/-- The names of encodings that a document may declare. -/
def encodings : List String :=
  ["utf-8", "utf8", "iso-8859-1", "latin1", "ascii", "us-ascii"]

/-- Whether the attributes of the declaration of a document are in order: a
version, and optionally an encoding and whether the document stands alone. -/
def isGoodDocumentDeclaration (attributes : List NamedValue) : Bool :=
  let isNamed (name : String) (item : NamedValue) : Bool :=
    item.name == ⟨none, name⟩
  let isVersion (item : NamedValue) : Bool :=
    isNamed "version" item && ["1.0", "1.1"].contains item.value
  let isEncoding (item : NamedValue) : Bool :=
    isNamed "encoding" item && encodings.contains item.value.toLower
  let isStandalone (item : NamedValue) : Bool :=
    isNamed "standalone" item && ["yes", "no"].contains item.value
  match attributes with
  | [version] => isVersion version
  | [version, second] =>
    isVersion version && (isEncoding second || isStandalone second)
  | [version, encoding, standalone] =>
    isVersion version && isEncoding encoding && isStandalone standalone
  | _ => false

/-- Read the attributes of the declaration of a document, up to its end. -/
def readDocumentDeclaration :
    Nat → List NamedValue → List Char → Option (List Char)
  | 0, _, _ => none
  | fuel + 1, attributes, text =>
    match skipBlanks text with
    | '?' :: '>' :: rest =>
      if isGoodDocumentDeclaration attributes.reverse then some rest else none
    | inner =>
      if text.head?.any isBlank then
        match readAttribute [] inner with
        | some (item, rest) =>
          readDocumentDeclaration fuel (item :: attributes) rest
        | none => none
      else none

end JourneyTimes.Markup
