/-!
# Tokens of a document

A document is read as a row of tokens: marks of structure, most of them not written but drawn
from the indentation, and the parts that carry text.
-/

namespace ContentTyping.Yaml

/-- The ways to write a scalar. -/
inductive ScalarStyle where
  | plain
  | singleQuoted
  | doubleQuoted
  | literal
  | folded
  deriving DecidableEq

/-- The tokens. -/
inductive Token where
  | version (major minor : Nat)
  /-- A handle that abbreviates the beginning of tags. -/
  | tagHandle (handle stem : String)
  | documentStart
  | documentEnd
  | blockSequenceStart
  | blockMappingStart
  | blockEnd
  | flowSequenceStart
  | flowSequenceEnd
  | flowMappingStart
  | flowMappingEnd
  | blockEntry
  | flowEntry
  | key
  | value
  | alias (name : String)
  | anchor (name : String)
  | tag (handle suffix : String)
  | scalar (style : ScalarStyle) (text : String)
  deriving DecidableEq

end ContentTyping.Yaml
