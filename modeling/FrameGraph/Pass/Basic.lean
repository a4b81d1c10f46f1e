import FrameGraph.Compile.Output
import FrameGraph.Component
import FrameGraph.Device.Interface

/-! # Passes

A compiled tree becomes a tree of passes. A pass keeps what its setup created and what its last
preparation decided; encoding changes no pass.
-/

namespace FrameGraph

/-- A created bind group and the generations of the resources it was created from. -/
structure BoundGroup where
  group : BindGroup
  stamp : List (Option Nat)
deriving DecidableEq, Repr

/-- What a kernel or a draw binds: bind groups of its own, shared argument blocks, a uniform block for
each bytes argument and one for the grid's extent. -/
structure Bindings where
  label : String
  groups : List GroupBinding
  bytes : List BytesSlot
  /-- One for each bytes slot, once the pass is set up. -/
  bytesBuffers : List Buffer := []
  gridBuffer : Option Buffer := none
  /-- The groups of its own that were created so far, by group number. -/
  own : List (Option BoundGroup)
  /-- One bind group for each group number, as of the last complete refresh. -/
  resolved : List BindGroup := []

namespace Bindings

def ofGroups (label : String) (groups : List GroupBinding) (bytes : List BytesSlot) : Bindings :=
  { label, groups, bytes, own := groups.map fun _ => none }

/-- Some group of its own binds the grid's extent. -/
def wantsGrid (bindings : Bindings) : Bool :=
  bindings.groups.any fun group =>
    match group with
    | .own spec => spec.any (·.source == .gridExtent)
    | .shared _ => false

end Bindings

/-- A kernel over a thread grid. -/
structure DispatchPass where
  label : String
  compiled : CompiledDispatch
  waitUntilCompleted : Bool
  bindings : Bindings
  pipeline : Option ComputePipeline := none
  /-- The grid of the last preparation. -/
  grid : Axes := ⟨0, 0, 0⟩

/-- A vertex and a fragment entry point drawn into colour targets. -/
structure DrawPass where
  label : String
  compiled : CompiledDraw
  targets : List ColorTarget
  depth : Option DepthTarget
  topology : Topology
  vertices : VertexCount
  instances : Nat
  index : Option (BufferHandle × IndexFormat)
  bindings : Bindings
  pipeline : Option RenderPipeline := none
  /-- The target formats that the pipeline was created for. -/
  formats : List PixelFormat := []

structure FilterPass where
  node : FilterNode
  prepared : Option PreparedFilter := none

inductive Pass where
  | dispatch (pass : DispatchPass)
  | draw (pass : DrawPass)
  | blit (node : Blit)
  | filter (pass : FilterPass)
  | callback (node : Callback)
  /-- `planned` is how often the children are encoded this frame, as the last preparation read it. -/
  | group (options : GroupOptions) (planned : Nat) (children : List Pass)
  /-- Setup hands the children over to the coordinator; `held` tells that it has not yet. -/
  | offFrame (coordinator : String) (held : Bool) (children : List Pass)

namespace Pass

def label : Pass → String
  | dispatch pass => pass.label
  | draw pass => pass.label
  | blit node => node.label
  | filter pass => pass.node.label
  | callback node => node.label
  | group options _ _ => options.label
  | offFrame coordinator _ _ => coordinator

def ofDispatch (label : String) (compiled : CompiledDispatch) (waitUntilCompleted : Bool) : Pass :=
  .dispatch {
    label, compiled, waitUntilCompleted
    bindings := .ofGroups label compiled.groups compiled.bytes }

/-- Indices are narrow when the buffer's elements are. -/
def indexBinding (table : ResourceTable) (buffer : BufferHandle) : BufferHandle × IndexFormat :=
  match table.buffer? buffer with
  | some decl => (buffer, if decl.element.isScalar .u16 then .u16 else .u32)
  | none => (buffer, .u32)

def ofDraw (table : ResourceTable) (node : Draw) (compiled : CompiledDraw) : Pass :=
  .draw {
    label := node.label
    compiled
    targets := node.targets
    depth := node.depth
    topology := node.topology
    vertices := node.vertices
    instances := node.instances
    index := node.index.map (indexBinding table)
    bindings := .ofGroups node.label compiled.groups compiled.bytes }

/-- The pass of a leaf and its compiled form; absent when the two do not belong together. -/
def ofLeaf? (table : ResourceTable) : Leaf → CompiledLeaf → Option Pass
  | .dispatch node, .dispatch compiled =>
    some (ofDispatch node.label compiled node.waitUntilCompleted)
  | .draw node, .draw compiled => some (ofDraw table node compiled)
  | .blit node, _ => some (.blit node)
  | .filter node, _ => some (.filter { node })
  | .callback node, _ => some (.callback node)
  | _, _ => none

/-- A builder walks the tree in pre-order and takes compiled leaves by their place; the error is the
place of a leaf without a fitting compiled leaf. -/
abbrev Build := StateT Nat (Except Nat)

variable (table : ResourceTable) (leaves : List CompiledLeaf)

def takeLeaf (node : Leaf) : Build Pass := fun place =>
  match leaves[place]?.bind (ofLeaf? table node) with
  | some pass => .ok (pass, place + 1)
  | none => .error place

mutual

def ofComponent : Component → Build Pass
  | .leaf node => takeLeaf table leaves node
  | .group options children => do return .group options 0 (← ofComponents children)
  | .offFrame coordinator children => do return .offFrame coordinator true (← ofComponents children)

/-- The passes of components, in order. -/
def ofComponents : List Component → Build (List Pass)
  | [] => return []
  | component :: rest => do
    let pass ← ofComponent component
    return pass :: (← ofComponents rest)

end

end Pass

end FrameGraph
