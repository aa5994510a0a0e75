/-!
# Tokens

A configuration file is a sequence of tokens.  Besides the marks and scalars
that stand in the text there are tokens for what indentation says: where a
list or mapping begins, where it ends, and which scalar is a key.
-/

namespace JourneyTimes.Yaml

/-- The tag in front of a scalar, which names its kind. -/
structure Tag where
  handle : String
  kind : String
deriving Repr, DecidableEq

/-- The parts of a configuration file. -/
inductive Token where
  /-- A line for the reader of the file. -/
  | directive
  | documentStart
  | documentEnd
  | blockListStart
  | blockMappingStart
  /-- The end of the indentation of a list or mapping. -/
  | blockEnd
  | blockItem
  | flowListStart
  | flowListEnd
  | flowMappingStart
  | flowMappingEnd
  | flowSeparator
  | key
  | value
  /-- A reference to the node with an anchor. -/
  | reference (name : String)
  /-- A name for the node behind it. -/
  | anchor (name : String)
  | tag (tag : Tag)
  /-- A scalar without quotes. -/
  | plain (text : String)
  /-- A scalar in quotes or in a block of lines of its own. -/
  | verbatim (text : String)
  /-- The end of the file. -/
  | ending
deriving Repr, DecidableEq

end JourneyTimes.Yaml
