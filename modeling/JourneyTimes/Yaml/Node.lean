import JourneyTimes.Yaml.Token
import JourneyTimes.Yaml.Value

/-!
# Nodes

This module puts the tokens of a configuration file together to values.

A node may have an anchor, and a reference stands for the value of the last
node with its anchor so far.  While that node is still being read, the
reference stands for nothing.  What is left out in a list or mapping is null.
-/

namespace JourneyTimes.Yaml

/-- The nodes with anchors. -/
structure Anchors where
  /-- The numbers of the nodes by their anchors, the latest first. -/
  numbers : List (String × Nat)
  /-- The values of the nodes that have been read, by number. -/
  values : List (Nat × Value)
  /-- The number of the next node. -/
  next : Nat

/-- The tokens that are left, and the anchors so far. -/
structure Reading where
  tokens : List Token
  anchors : Anchors

/-- A computation that reads tokens; it fails if they are malformed. -/
abbrev Reader (β : Type) := StateT Reading Option β

namespace Reader

/-- The next token. -/
def peek : Reader Token := do
  match (← get).tokens with
  | token :: _ => pure token
  | [] => failure

/-- Go on behind the next token. -/
def skip : Reader PUnit :=
  modify fun reading => { reading with tokens := reading.tokens.drop 1 }

/-- Go on behind a token, which must be the next one. -/
def expect (token : Token) : Reader PUnit := do
  if (← peek) = token then skip else failure

/-- Give the next node an anchor; the result is the number of the node. -/
def putAnchor (name : String) : Reader Nat := do
  let { tokens, anchors } ← get
  let number := anchors.next
  let numbers := (name, number) :: anchors.numbers
  set ({ tokens, anchors := { anchors with numbers, next := number + 1 } } :
    Reading)
  pure number

/-- Remember the value of a node with an anchor. -/
def putValue (number : Nat) (value : Value) : Reader PUnit :=
  modify fun reading =>
    { reading with
      anchors.values := (number, value) :: reading.anchors.values }

/-- The value that a reference stands for. -/
def resolve (name : String) : Reader Value := do
  let anchors := (← get).anchors
  match anchors.numbers.lookup name with
  | some number => pure ((anchors.values.lookup number).getD .absent)
  | none => failure

/-- What stands in front of the content of a node. -/
structure Properties where
  anchor : Option Nat
  tag : Option Tag

/-- Read the anchor and the tag of a node, in either order. -/
def readProperties : Reader Properties := do
  match ← peek with
  | .anchor name =>
    skip
    let number ← putAnchor name
    match ← peek with
    | .tag tag =>
      skip
      pure ⟨some number, some tag⟩
    | _ => pure ⟨some number, none⟩
  | .tag tag =>
    skip
    match ← peek with
    | .anchor name =>
      skip
      pure ⟨some (← putAnchor name), some tag⟩
    | _ => pure ⟨none, some tag⟩
  | _ => pure ⟨none, none⟩

/-- The value of a scalar without quotes. -/
def Properties.plainValue (properties : Properties) (text : String) : Value :=
  match properties.tag with
  | none => .ofPlain text
  | some tag =>
    if tag.handle = "!!" then .ofKind tag.kind text else .text text

/-- Where a node stands. -/
inductive Surrounding where
  /-- Inside brackets or braces. -/
  | flow
  | block
  /-- A key or value of a mapping; the items of a list in its place need not
  be indented. -/
  | entry
deriving DecidableEq

/-- A node, or null if the next token is one of those that end it. -/
def nodeOrNull (ends : List Token) (node : Reader Value) : Reader Value := do
  if ends.contains (← peek) then pure .null else node

mutual

/-- Read a node. -/
def readNode : Nat → Surrounding → Reader Value
  | 0, _ => failure
  | fuel + 1, surrounding => do
    match ← peek with
    | .reference name =>
      skip
      resolve name
    | _ =>
      let properties ← readProperties
      let value ← readContent fuel surrounding properties
      match properties.anchor with
      | some number =>
        putValue number value
        pure value
      | none => pure value

/-- Read what stands behind the anchor and the tag of a node.  Where there is
an anchor or a tag, there need not be anything. -/
def readContent : Nat → Surrounding → Properties → Reader Value
  | 0, _, _ => failure
  | fuel + 1, surrounding, properties => do
    match ← peek, surrounding with
    | .plain text, _ =>
      skip
      pure (properties.plainValue text)
    | .verbatim text, _ =>
      skip
      pure (.text text)
    | .flowListStart, _ =>
      skip
      return .list (← readFlowItems fuel true)
    | .flowMappingStart, _ =>
      skip
      return .ofNodes (← readFlowEntries fuel true)
    | .blockItem, .entry => return .list (← readEvenItems fuel)
    | .blockListStart, .block | .blockListStart, .entry =>
      skip
      return .list (← readItems fuel)
    | .blockMappingStart, .block | .blockMappingStart, .entry =>
      skip
      return .ofNodes (← readEntries fuel)
    | _, _ =>
      if properties.anchor.isSome ∨ properties.tag.isSome then
        pure (properties.plainValue "")
      else failure

/-- Read the items of a list that is indented. -/
def readItems : Nat → Reader (List Value)
  | 0 => failure
  | fuel + 1 => do
    if (← peek) = .blockEnd then
      skip
      pure []
    else
      expect .blockItem
      let item ← nodeOrNull [.blockItem, .blockEnd] (readNode fuel .block)
      return item :: (← readItems fuel)

/-- Read the items of a list that is no more indented than the mapping around
it. -/
def readEvenItems : Nat → Reader (List Value)
  | 0 => failure
  | fuel + 1 => do
    if (← peek) = .blockItem then
      skip
      let item ← nodeOrNull [.blockItem, .key, .value, .blockEnd]
        (readNode fuel .block)
      return item :: (← readEvenItems fuel)
    else pure []

/-- Read the keys and values of a mapping that is indented. -/
def readEntries : Nat → Reader (List Value)
  | 0 => failure
  | fuel + 1 => do
    match ← peek with
    | .blockEnd =>
      skip
      pure []
    | .key =>
      skip
      let key ← nodeOrNull [.key, .value, .blockEnd] (readNode fuel .entry)
      let value ← readEntryValue fuel
      return key :: value :: (← readEntries fuel)
    | .value =>
      let value ← readEntryValue fuel
      return .null :: value :: (← readEntries fuel)
    | _ => failure

/-- Read the value of an entry. -/
def readEntryValue : Nat → Reader Value
  | 0 => failure
  | fuel + 1 => do
    if (← peek) = .value then
      skip
      nodeOrNull [.key, .value, .blockEnd] (readNode fuel .entry)
    else pure .null

/-- Read the items of a list in brackets.  An item that is an entry is a
mapping of its own. -/
def readFlowItems : Nat → Bool → Reader (List Value)
  | 0, _ => failure
  | fuel + 1, isFirst => do
    if (← peek) = .flowListEnd then
      skip
      pure []
    else
      if !isFirst then expect .flowSeparator
      match ← peek with
      | .flowListEnd =>
        skip
        pure []
      | .key =>
        skip
        let key ← readItemKey fuel
        let value ← readItemValue fuel
        return .ofNodes [key, value] :: (← readFlowItems fuel false)
      | _ =>
        let item ← readNode fuel .flow
        return item :: (← readFlowItems fuel false)

/-- Read the key of an entry among the items of a list.  The token behind a
key that is left out is skipped. -/
def readItemKey : Nat → Reader Value
  | 0 => failure
  | fuel + 1 => do
    if [.value, .flowSeparator, .flowListEnd].contains (← peek) then
      skip
      pure .null
    else readNode fuel .flow

/-- Read the value of an entry among the items of a list. -/
def readItemValue : Nat → Reader Value
  | 0 => failure
  | fuel + 1 => do
    if (← peek) = .value then
      skip
      nodeOrNull [.flowSeparator, .flowListEnd] (readNode fuel .flow)
    else pure .null

/-- Read the keys and values of a mapping in braces.  A node without a colon
is a key whose value is left out. -/
def readFlowEntries : Nat → Bool → Reader (List Value)
  | 0, _ => failure
  | fuel + 1, isFirst => do
    if (← peek) = .flowMappingEnd then
      skip
      pure []
    else
      if !isFirst then expect .flowSeparator
      match ← peek with
      | .flowMappingEnd =>
        skip
        pure []
      | .key =>
        skip
        let key ← nodeOrNull [.value, .flowSeparator, .flowMappingEnd]
          (readNode fuel .flow)
        let value ← readFlowValue fuel
        return key :: value :: (← readFlowEntries fuel false)
      | .value =>
        let value ← readFlowValue fuel
        return .null :: value :: (← readFlowEntries fuel false)
      | _ =>
        let key ← readNode fuel .flow
        return key :: .null :: (← readFlowEntries fuel false)

/-- Read the value of an entry in braces. -/
def readFlowValue : Nat → Reader Value
  | 0 => failure
  | fuel + 1 => do
    if (← peek) = .value then
      skip
      nodeOrNull [.flowSeparator, .flowMappingEnd] (readNode fuel .flow)
    else pure .null

end

end Reader

end JourneyTimes.Yaml
