import FrameGraph.Binding
import FrameGraph.Filter
import FrameGraph.Resource.Usage

/-! # Device objects

What a device creates. An object keeps the description it was created from; its number tells it apart
from every other object of the device, so two reads of a slot give the same allocation exactly when the
numbers agree.
-/

namespace FrameGraph

/-- What happens to a colour target before a draw; a clear colour is given by the bit patterns of four
double-precision numbers. -/
inductive LoadAction where
  | clear (red green blue alpha : UInt64)
  | load
deriving DecidableEq, Repr

inductive BlendMode where
  | replace | alpha | additive
deriving DecidableEq, Repr, Inhabited

inductive Topology where
  | triangleList | triangleStrip | lineList | lineStrip | pointList
deriving DecidableEq, Repr, Inhabited

structure TextureSpec where
  label : String
  extent : Extent
  dimension : Dimension
  format : PixelFormat
  usage : TextureUsage
deriving DecidableEq, Repr, Inhabited

structure Texture extends TextureSpec where
  id : Nat
deriving DecidableEq, Repr, Inhabited

structure BufferSpec where
  label : String
  size : Nat
  usage : BufferUsage
deriving DecidableEq, Repr, Inhabited

structure Buffer extends BufferSpec where
  id : Nat
deriving DecidableEq, Repr, Inhabited

/-- The text of one program unit, loaded into the device. -/
structure ShaderModule where
  label : String
  source : String
deriving DecidableEq, Repr, Inhabited

structure ComputePipelineSpec where
  label : String
  module : ShaderModule
  entry : String
  /-- The layout of each bind group, by group number. -/
  groups : List (List LayoutEntry)
deriving DecidableEq, Repr, Inhabited

structure ComputePipeline extends ComputePipelineSpec where
  id : Nat
deriving DecidableEq, Repr, Inhabited

structure ColorTargetSpec where
  format : PixelFormat
  blend : BlendMode
deriving DecidableEq, Repr, Inhabited

structure RenderPipelineSpec where
  label : String
  module : ShaderModule
  vertexEntry : String
  fragmentEntry : String
  groups : List (List LayoutEntry)
  targets : List ColorTargetSpec
  depth : Option PixelFormat
  topology : Topology
deriving DecidableEq, Repr, Inhabited

structure RenderPipeline extends RenderPipelineSpec where
  id : Nat
deriving DecidableEq, Repr, Inhabited

/-- What a bind group entry refers to. -/
inductive BoundResource where
  | buffer (bound : Buffer)
  | texture (bound : Texture)
deriving DecidableEq, Repr, Inhabited

def BoundResource.id : BoundResource → Nat
  | .buffer bound => bound.id
  | .texture bound => bound.id

def BoundResource.label : BoundResource → String
  | .buffer bound => bound.label
  | .texture bound => bound.label

structure BindGroup where
  id : Nat
  label : String
  layout : List LayoutEntry
  /-- One for each layout entry, in the same order. -/
  resources : List BoundResource
deriving DecidableEq, Repr, Inhabited

/-- An image filter made ready for a destination format. -/
structure PreparedFilter where
  filter : ImageFilter
  destination : PixelFormat
deriving DecidableEq, Inhabited

end FrameGraph
