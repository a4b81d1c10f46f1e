import FrameGraph.Yaml.Token

/-! # Nodes

What a document holds: scalars, sequences and mappings, and references to nodes that have a name.
-/

namespace FrameGraph.Yaml

inductive Node where
  /-- Only a scalar without quotes or marks has a meaning that depends on its text alone. -/
  | scalar (text : String) (style : Style) (tag : Option Bytes)
  | sequence (items : List Node)
  | mapping (entries : List (Node × Node))
  /-- The named node with this number stands here. -/
  | reference (number : Nat)
deriving Inhabited, Repr

/-- Nothing was written. -/
def Node.empty : Node := scalar "" .plain none

/-- A number for each name, and the nodes that were given a name, in the order in which they start. A new
name gets the next number. A name that is given again gets the next number too, which stays free for the
name that follows; of the nodes with one number the last one stands. -/
structure NodeNames where
  numbers : List (List Char × Nat) := []
  /-- The number of each named node, last one first. -/
  given : List Nat := []
  /-- Named nodes by their place in that order. -/
  nodes : List (Nat × Node) := []

namespace NodeNames

/-- The node that starts here gets a name. -/
def give (names : NodeNames) (name : List Char) : NodeNames :=
  let number := names.numbers.length
  { names with
    numbers := (name, number) :: names.numbers.filter (·.1 ≠ name)
    given := number :: names.given }

/-- The named node that started at `place` is `node`. -/
def keep (names : NodeNames) (place : Nat) (node : Node) : NodeNames :=
  { names with nodes := (place, node) :: names.nodes }

/-- The node that a number stands for. -/
def node? (names : NodeNames) (number : Nat) : Option Node := do
  let later ← names.given.findIdx? (· == number)
  names.nodes.lookup (names.given.length - 1 - later)

end NodeNames

/-- A node with all that its references need. -/
structure Document where
  root : Node
  names : NodeNames := {}

/-- A node of the document; a reference is followed. -/
def Document.follow? (document : Document) : Node → Option Node
  | .reference number => document.names.node? number
  | node => some node

end FrameGraph.Yaml
