import JourneyTimes.Numeral
import JourneyTimes.Text.Quoted
import JourneyTimes.Text.WholeNumber

/-!
# Values of configuration files

A configuration file holds scalars, lists of values and mappings from values
to values.  A scalar that stands in the file without quotes means a number, a
truth value or nothing at all if it looks like one, and otherwise its text.

Numbers with a fraction keep their text, because messages show it.
-/

namespace JourneyTimes.Yaml

open JourneyTimes.Text (quoted)

/-- A value of a configuration file. -/
inductive Value where
  /-- A scalar that does not fit its tag, or what is not there. -/
  | absent
  | null
  | truth (value : Bool)
  | whole (value : Int)
  /-- A number with a fraction, as it stands in the file. -/
  | real (digits : String)
  | text (value : String)
  | list (items : List Value)
  | mapping (entries : List (Value × Value))
deriving Inhabited

/-- The words for the largest real, each with its sign. -/
def infinities : List (String × Bool) :=
  [(".inf", false), (".Inf", false), (".INF", false),
    ("+.inf", false), ("+.Inf", false), ("+.INF", false),
    ("-.inf", true), ("-.Inf", true), ("-.INF", true)]

/-- The words for a real that is undefined. -/
def undefinedReals : List String := [".nan", "NaN", ".NAN"]

/-- The number that a text stands for, if it is one. -/
def readReal (text : String) : Option Numeral :=
  match infinities.lookup text with
  | some negative => some (.infinite negative)
  | none =>
    if undefinedReals.contains text then some .undefined
    else (Numeral.read text).toOption

/-- A whole number in decimal digits. -/
def readWhole (characters : List Char) : Option Int :=
  (WholeNumber.readInt 10 characters).toOption

/-- A whole number with a mark in front of it, if it has such a mark. -/
def readMarked : List Char → Option Int
  | '0' :: 'x' :: digits => (WholeNumber.readInt 16 digits).toOption
  | '0' :: 'o' :: digits => (WholeNumber.readInt 8 digits).toOption
  | '+' :: digits => readWhole digits
  | _ => none

namespace Value

mutual

/-- Whether two values are the same; the order of entries counts. -/
def same : Value → Value → Bool
  | .absent, .absent => true
  | .null, .null => true
  | .truth left, .truth right => left == right
  | .whole left, .whole right => left == right
  | .real left, .real right => left == right
  | .text left, .text right => left == right
  | .list left, .list right => sameItems left right
  | .mapping left, .mapping right => sameEntries left right
  | _, _ => false

/-- Whether two lists have the same values. -/
def sameItems : List Value → List Value → Bool
  | [], [] => true
  | left :: leftRest, right :: rightRest =>
    left.same right && sameItems leftRest rightRest
  | _, _ => false

/-- Whether two mappings have the same entries. -/
def sameEntries : List (Value × Value) → List (Value × Value) → Bool
  | [], [] => true
  | (leftKey, leftValue) :: leftRest, (rightKey, rightValue) :: rightRest =>
    leftKey.same rightKey && leftValue.same rightValue &&
      sameEntries leftRest rightRest
  | _, _ => false

end

/-- Whether there is no value. -/
def isAbsent : Value → Bool
  | .absent => true
  | _ => false

/-- The value of a scalar without quotes and without a tag. -/
def ofPlain (characters : String) : Value :=
  match readMarked characters.toList with
  | some number => .whole number
  | none =>
    if characters = "~" ∨ characters = "null" then .null
    else if characters = "true" then .truth true
    else if characters = "false" then .truth false
    else
      match readWhole characters.toList with
      | some number => .whole number
      | none =>
        if (readReal characters).isSome then .real characters
        else .text characters

/-- The value of a scalar without quotes that must be of a named kind. -/
def ofKind (kind characters : String) : Value :=
  if kind = "bool" then
    if characters = "true" then .truth true
    else if characters = "false" then .truth false
    else .absent
  else if kind = "int" then
    ((readWhole characters.toList).map whole).getD .absent
  else if kind = "float" then
    if (readReal characters).isSome then .real characters else .absent
  else if kind = "null" then
    if characters = "~" ∨ characters = "null" then .null else .absent
  else .text characters

/-- Put a value under a key.  A key that was there before moves to the end. -/
def putEntry (entries : List (Value × Value)) (key value : Value) :
    List (Value × Value) :=
  entries.filter (fun entry => !entry.1.same key) ++ [(key, value)]

/-- A mapping from the nodes inside it, keys and values in turn.  A key that
is absent does not count, so that the next node takes its place. -/
def ofNodes (nodes : List Value) : Value :=
  let step (state : List (Value × Value) × Value) (node : Value) :
      List (Value × Value) × Value :=
    let (entries, key) := state
    if key.isAbsent then (entries, node)
    else (putEntry entries key node, .absent)
  .mapping (nodes.foldl step ([], .absent)).1

/-- The value under a text in a mapping. -/
def get (value : Value) (key : String) : Value :=
  match value with
  | .mapping entries =>
    ((entries.find? fun entry => entry.1.same (.text key)).map (·.2)).getD .absent
  | _ => .absent

/-- The text that a value is. -/
def text? : Value → Option String
  | .text value => some value
  | _ => none

/-- The whole number that a value is. -/
def whole? : Value → Option Int
  | .whole value => some value
  | _ => none

mutual

/-- How a value is shown in messages. -/
def shown : Value → String
  | .absent => "BadValue"
  | .null => "Null"
  | .truth value => "Boolean(" ++ toString value ++ ")"
  | .whole value => "Integer(" ++ toString value ++ ")"
  | .real digits => "Real(" ++ quoted digits ++ ")"
  | .text value => "String(" ++ quoted value ++ ")"
  | .list items => "Array([" ++ ", ".intercalate (shownItems items) ++ "])"
  | .mapping entries =>
    "Hash(\x7b" ++ ", ".intercalate (shownEntries entries) ++ "\x7d)"

/-- How the items of a list are shown. -/
def shownItems : List Value → List String
  | [] => []
  | item :: rest => item.shown :: shownItems rest

/-- How the entries of a mapping are shown. -/
def shownEntries : List (Value × Value) → List String
  | [] => []
  | (key, value) :: rest =>
    (key.shown ++ ": " ++ value.shown) :: shownEntries rest

end

end Value

end JourneyTimes.Yaml
