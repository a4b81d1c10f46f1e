import FrameGraph.Argument
import FrameGraph.Resource.Format
import FrameGraph.Text.Stage

/-! # Bind groups

A binding has a number, a kind, the stages that see it and a source that feeds it. A compiled leaf has
its own groups first, then the groups of the argument blocks it shares with other leaves.
-/

namespace FrameGraph

/-- The stages that see a binding. -/
structure StageSet where
  compute : Bool := false
  vertex : Bool := false
  fragment : Bool := false
deriving DecidableEq, Repr

namespace StageSet

def single : Stage → StageSet
  | .compute => { compute := true }
  | .vertex => { vertex := true }
  | .fragment => { fragment := true }

def union (a b : StageSet) : StageSet :=
  ⟨a.compute || b.compute, a.vertex || b.vertex, a.fragment || b.fragment⟩

def bits (stages : StageSet) : Nat :=
  stages.compute.toNat + 2 * stages.vertex.toNat + 4 * stages.fragment.toNat

/-- Bits without a meaning are dropped. -/
def ofBits (bits : Nat) : StageSet := ⟨bits.testBit 0, bits.testBit 1, bits.testBit 2⟩

end StageSet

inductive BindingKind where
  | uniform
  | storage (readOnly : Bool)
  | texture (dimension : Dimension) (sample : SampleKind)
  | storageTexture (dimension : Dimension) (format : PixelFormat) (readWrite : Bool)
deriving DecidableEq, Repr

/-- One entry of a bind group layout; equal lists of entries are equal layouts. -/
structure LayoutEntry where
  binding : Nat
  kind : BindingKind
  visibility : StageSet
deriving DecidableEq, Repr

/-- What feeds a binding when a pass runs. -/
inductive BindingSource where
  | buffer (handle : BufferHandle)
  | texture (handle : TextureHandle)
  /-- The uniform block of the pass for this bytes argument. -/
  | bytes (slot : Nat)
  /-- The uniform block with the grid's extent. -/
  | gridExtent
deriving DecidableEq, Repr

structure BindingSpec where
  name : String
  entry : LayoutEntry
  source : BindingSource
deriving DecidableEq, Repr

/-- The contents of one bind group, by binding number. -/
abbrev GroupSpec := List BindingSpec

def GroupSpec.layout (group : GroupSpec) : List LayoutEntry := group.map (·.entry)

/-- Put a binding in front of the first one of the same or a higher number. -/
def GroupSpec.insert (binding : BindingSpec) : GroupSpec → GroupSpec
  | [] => [binding]
  | other :: rest =>
    if binding.entry.binding ≤ other.entry.binding then binding :: other :: rest
    else other :: insert binding rest

/-- Order by binding number; equal numbers keep their order. -/
def GroupSpec.sorted (group : GroupSpec) : GroupSpec := group.foldr insert []

/-- A bind group of a compiled leaf. -/
inductive GroupBinding where
  | own (group : GroupSpec)
  /-- The argument block at this place, shared by every leaf that refers to it. -/
  | shared (block : Nat)
deriving DecidableEq, Repr

/-- A named argument block and its bind group. -/
structure ArgumentBlock where
  name : String
  group : GroupSpec
deriving DecidableEq, Repr

end FrameGraph
