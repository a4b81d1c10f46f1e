import FrameGraph.Yaml.Tag

/-! # Tokens of a document -/

namespace FrameGraph.Yaml

/-- How a scalar is written. -/
inductive Style where
  | plain | quoted | literal | folded
deriving DecidableEq, Repr

inductive Token where
  /-- A line gives the version of the format. -/
  | version (major minor : Nat)
  /-- A line says what a handle stands for. -/
  | handle (name : List Char) (meaning : Bytes)
  | documentStart
  | documentEnd
  | blockSequence
  | blockMapping
  | blockEnd
  | openBracket
  | closeBracket
  | openBrace
  | closeBrace
  /-- An item of a sequence in a block. -/
  | item
  | comma
  | key
  | value
  /-- The node with this name stands here. -/
  | reference (name : List Char)
  /-- The next node has this name. -/
  | name (name : List Char)
  | tag (tag : Tag)
  | scalar (text : String) (style : Style)
deriving DecidableEq, Repr

end FrameGraph.Yaml
