import FrameGraph.Callback

/-! # The component tree

What the caller builds to describe a frame: kernels, draws, copies, filters and callbacks as leaves,
ordinary groups and off-frame groups as inner nodes. A group may repeat its children, may be switched
off, and may be isolated, which gives its children a program unit of their own.
-/

namespace FrameGraph

/-- A kernel launched over a thread grid; `function` is its entry point in `source`. -/
structure Dispatch where
  label : String
  source : String
  function : String
  arguments : List Argument
  fits : List GridSource
  scale : Scale := .unit
  /-- Submit the frame so far after this kernel and wait for it. -/
  waitUntilCompleted : Bool := false

structure ColorTarget where
  texture : TextureRef
  load : LoadAction
  blend : BlendMode := .replace
deriving DecidableEq, Repr

structure DepthTarget where
  texture : TextureHandle
  /-- The bit pattern of the depth to clear to; the depth that is there is kept when absent. -/
  clear : Option UInt32
deriving DecidableEq, Repr

inductive VertexCount where
  | fixed (count : Nat)
  /-- One vertex for every element. -/
  | buffer (handle : BufferHandle)
deriving DecidableEq, Repr

/-- A pair of vertex and fragment entry points drawn into colour targets. -/
structure Draw where
  label : String
  source : String
  vertex : String
  fragment : String
  vertexArguments : List Argument := []
  fragmentArguments : List Argument := []
  targets : List ColorTarget := []
  depth : Option DepthTarget := none
  topology : Topology := .triangleList
  vertices : VertexCount := .fixed 3
  instances : Nat := 1
  /-- Draw indexed; the buffer holds indices. -/
  index : Option BufferHandle := none

inductive BlitOp where
  | copyTexture (source : TextureHandle) (destination : TextureRef)
  | copyBuffer (source destination : BufferHandle)
  | clearBuffer (buffer : BufferHandle)
deriving DecidableEq, Repr

namespace BlitOp

def defaultLabel : BlitOp → String
  | .copyTexture .. => "copy texture"
  | .copyBuffer .. => "copy buffer"
  | .clearBuffer _ => "clear buffer"

end BlitOp

structure Blit where
  label : String
  op : BlitOp
deriving DecidableEq, Repr

/-- A built-in image filter from one texture into another. -/
structure FilterNode where
  label : String
  filter : ImageFilter
  source : TextureHandle
  destination : TextureHandle

inductive Leaf where
  | dispatch (node : Dispatch)
  | draw (node : Draw)
  | blit (node : Blit)
  | filter (node : FilterNode)
  | callback (node : Callback)

def Leaf.label : Leaf → String
  | .dispatch node => node.label
  | .draw node => node.label
  | .blit node => node.label
  | .filter node => node.label
  | .callback node => node.label

/-- How a group runs its children. -/
structure GroupOptions where
  label : String
  /-- The counter that says how often the children run. -/
  repeatCount : Option String := none
  /-- The flag that switches the group on. -/
  active : Option FlagKey := none
  /-- The library text of a unit of its own. -/
  isolated : Option String := none
deriving DecidableEq, Repr

inductive Component where
  | leaf (node : Leaf)
  | group (options : GroupOptions) (children : List Component)
  /-- Children run off-frame by the coordinator of this name. -/
  | offFrame (coordinator : String) (children : List Component)
deriving Inhabited

/-- A whole frame: library text of the main unit and the components in order. -/
structure Program where
  library : String
  root : List Component

end FrameGraph
