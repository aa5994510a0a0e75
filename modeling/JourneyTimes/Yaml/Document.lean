import JourneyTimes.Yaml.Layout
import JourneyTimes.Yaml.Node

/-!
# Documents of configuration files

A file may hold several documents, with lines of three dashes in front of
them.  Only the first one needs no such line.  Anchors hold for their document
only.
-/

namespace JourneyTimes.Yaml

namespace Reader

/-- Skip directives. -/
def skipDirectives : Nat → Reader PUnit
  | 0 => pure ⟨⟩
  | fuel + 1 => do
    if (← peek) = .directive then
      skip
      skipDirectives fuel

/-- Skip lines that end a document. -/
def skipDocumentEnds : Nat → Reader PUnit
  | 0 => pure ⟨⟩
  | fuel + 1 => do
    if (← peek) = .documentEnd then
      skip
      skipDocumentEnds fuel

/-- Forget all anchors. -/
def forgetAnchors : Reader PUnit :=
  modify fun reading => { reading with anchors.numbers := [] }

/-- Read a document that begins with a line of its own.  The document may be
empty. -/
def readMarkedDocument (fuel : Nat) : Reader Value := do
  skipDirectives fuel
  expect .documentStart
  nodeOrNull [.directive, .documentStart, .documentEnd, .ending]
    (readNode fuel .block)

/-- Read a document; only the first one may begin at once. -/
def readDocument (fuel : Nat) (isFirst : Bool) : Reader Value := do
  forgetAnchors
  let isMarked := [.directive, .documentStart].contains (← peek)
  let value ←
    if isFirst && !isMarked then readNode fuel .block
    else readMarkedDocument fuel
  if (← peek) = .documentEnd then skip
  pure value

/-- Read all documents; `fuel` bounds the number of tokens. -/
def readDocuments : Nat → Bool → Reader (List Value)
  | 0, _ => failure
  | fuel + 1, isFirst => do
    if !isFirst then skipDocumentEnds fuel
    if (← peek) = .ending then pure []
    else
      let value ← readDocument fuel isFirst
      return value :: (← readDocuments fuel false)

end Reader

/-- The documents of a configuration file; none if it is malformed. -/
def documents (text : String) : Option (List Value) := do
  let tokens := (← tokens text).toList
  let anchors : Anchors := { numbers := [], values := [], next := 0 }
  let (values, _) ← (Reader.readDocuments (4 * tokens.length + 4) true).run
    { tokens, anchors }
  pure values

end JourneyTimes.Yaml
