import JourneyTimes.Error

/-!
# Events of a document

A document is taken in as a stream of events: elements begin and end, and
between them there is text.  What reads networks or timetables only sees this
stream.  A document that is not well-formed gives all events up to the place
where that is noticed, so a fault of the content in front of that place is
still found first.
-/

namespace JourneyTimes.Markup

/-- An attribute of an element, without the part of its name in front of a
colon. -/
structure Attribute where
  name : String
  value : String
deriving Repr, DecidableEq

/-- What happens in a document. -/
inductive Event where
  | elementStart (name : String) (attributes : List Attribute)
  | elementEnd (name : String)
  /-- Text that is not all blank, with references resolved. -/
  | characters (text : String)
  /-- Blanks, verbatim sections and processing instructions. -/
  | other
  /-- The document is over and was well-formed. -/
  | documentEnd
  /-- The document is not well-formed here. -/
  | malformed
deriving Repr, DecidableEq

/-- The value of the first attribute with a name. -/
def attribute? (attributes : List Attribute) (name : String) : Option String :=
  (attributes.find? fun candidate => candidate.name == name).map (·.value)

/-- The value of an attribute that an element must have. -/
def require (attributes : List Attribute) (element name : String) :
    Except Error String :=
  match attribute? attributes name with
  | some value => .ok value
  | none => .error (.input (.missingAttribute element name))

/-- Read a number from the value of an attribute. -/
def readNumber {α : Type} [Numeric α] (value : String) : Except Error α :=
  (Numeric.read value).mapError fun fault => .input (.number fault)

end JourneyTimes.Markup
