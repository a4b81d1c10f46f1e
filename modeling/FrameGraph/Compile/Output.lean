import FrameGraph.Binding
import FrameGraph.Compile.Usage
import FrameGraph.Grid.Plan

/-! # Compiled programs

A unit's text is its record declarations, its library and one block for every leaf; the blocks are
kept beside the text. A compiled leaf lists its bind groups by group number and the uniform blocks
that its pass owns.
-/

namespace FrameGraph

/-- A module-scope variable. -/
structure Declaration where
  group : Nat
  binding : Nat
  /-- The variable class, as written. -/
  var : String
  name : String
  type : String
deriving DecidableEq, Repr

def Declaration.text (declaration : Declaration) : String :=
  s!"@group({declaration.group}) @binding({declaration.binding}) {declaration.var} {declaration.name}: {declaration.type};\n"

/-- One entry point of a leaf with the variables it uses. -/
structure EntryText where
  entry : String
  declarations : List Declaration
  code : String
deriving DecidableEq, Repr

def EntryText.text (function : EntryText) : String :=
  String.join (function.declarations.map Declaration.text) ++ function.code ++ "\n\n"

/-- The text of one leaf. -/
structure LeafText where
  label : String
  entries : List EntryText
deriving DecidableEq, Repr

/-- A comment line with the label, then the entry points. -/
def LeafText.text (leaf : LeafText) : String :=
  s!"// {leaf.label}\n" ++ String.join (leaf.entries.map EntryText.text)

structure CompiledUnit where
  label : String
  source : String
  records : List Record
  entries : List String
  leaves : List LeafText

def CompiledUnit.recordNames (unit : CompiledUnit) : List String := unit.records.map (·.name)

/-- A host value uploaded to a uniform block of `size` bytes. -/
structure BytesSlot where
  name : String
  size : Nat
  source : BytesSource
deriving DecidableEq

/-- Inspection text. -/
def BytesSlot.describe (name : String) (size : Nat) : String :=
  "BytesSlot \x7b name: " ++ Text.quoted name ++ s!", size: {size} \x7d"

structure CompiledDispatch where
  unit : Nat
  entry : String
  groups : List GroupBinding
  bytes : List BytesSlot
  grid : GridPlan

structure CompiledDraw where
  unit : Nat
  vertexEntry : String
  fragmentEntry : String
  groups : List GroupBinding
  bytes : List BytesSlot

inductive CompiledLeaf where
  | dispatch (leaf : CompiledDispatch)
  | draw (leaf : CompiledDraw)
  /-- Copies, filters and callbacks need no text. -/
  | host

structure CompiledProgram where
  units : List CompiledUnit
  /-- In pre-order of the tree. -/
  leaves : List CompiledLeaf
  usage : ResourceUsage
  blocks : List ArgumentBlock

namespace CompiledProgram

/-- The layout of each bind group of a leaf. -/
def groupLayouts (program : CompiledProgram) (groups : List GroupBinding) : List (List LayoutEntry) :=
  groups.map fun group =>
    match group with
    | .own spec => spec.layout
    | .shared block => (program.blocks[block]?.map fun b => b.group.layout).getD []

end CompiledProgram

end FrameGraph
