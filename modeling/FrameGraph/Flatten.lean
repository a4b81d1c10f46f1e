import FrameGraph.Component

/-! # Leaves and units of a component tree

The leaves of a tree in pre-order, each with the program unit it compiles into and its path of labels.
An isolated group opens a unit; everything else, off-frame children included, belongs to the unit of
its parent.
-/

namespace FrameGraph

/-- A program unit: its label and its library text. -/
structure UnitDecl where
  label : String
  library : String
deriving DecidableEq, Repr

structure FlatLeaf where
  unit : Nat
  /-- Labels from the root, separated by slashes. -/
  path : String
  node : Leaf

/-- A tree laid out flat. -/
structure Flattened where
  units : List UnitDecl
  leaves : List FlatLeaf

namespace Flattened

/-- The path of a component below `parent`; the root has the empty path. -/
def pathBelow (parent label : String) : String :=
  if parent.isEmpty then label else parent ++ "/" ++ label

def addUnit (flat : Flattened) (unit : UnitDecl) : Flattened :=
  { flat with units := flat.units ++ [unit] }

def addLeaf (flat : Flattened) (leaf : FlatLeaf) : Flattened :=
  { flat with leaves := flat.leaves ++ [leaf] }

mutual

/-- Add one component that belongs to `unit`. -/
def addComponent (unit : Nat) (parent : String) (flat : Flattened) : Component → Flattened
  | .leaf node => flat.addLeaf ⟨unit, pathBelow parent node.label, node⟩
  | .group options children =>
    let path := pathBelow parent options.label
    match options.isolated with
    | some library => addComponents flat.units.length path (flat.addUnit ⟨path, library⟩) children
    | none => addComponents unit path flat children
  | .offFrame coordinator children =>
    addComponents unit (pathBelow parent coordinator) flat children

/-- Add components in order. -/
def addComponents (unit : Nat) (parent : String) (flat : Flattened) : List Component → Flattened
  | [] => flat
  | component :: rest => addComponents unit parent (addComponent unit parent flat component) rest

end

/-- The main unit is the first one. -/
def ofProgram (program : Program) : Flattened :=
  addComponents 0 "" ⟨[⟨"main", program.library⟩], []⟩ program.root

end Flattened

end FrameGraph
