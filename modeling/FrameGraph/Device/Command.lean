import FrameGraph.Device.Object

/-! # Commands

What an encoder records, with the objects it refers to.
-/

namespace FrameGraph

/-- How many threads a kernel is launched with. -/
inductive LaunchSize where
  | workgroups (count : Axes)
  /-- Exact thread counts, for devices that allow them. -/
  | threads (count workgroup : Axes)
deriving DecidableEq, Repr

/-- The workgroups that cover a launch. -/
def LaunchSize.workgroupCount : LaunchSize → Axes
  | .workgroups count => count
  | .threads count workgroup =>
    ⟨groupsToCover count.x workgroup.x, groupsToCover count.y workgroup.y,
      groupsToCover count.z workgroup.z⟩

structure DispatchCommand where
  label : String
  pipeline : ComputePipeline
  groups : List BindGroup
  size : LaunchSize
deriving DecidableEq, Repr

inductive IndexFormat where
  | u16 | u32
deriving DecidableEq, Repr, Inhabited

structure IndexBinding where
  buffer : Buffer
  format : IndexFormat
  count : Nat
deriving DecidableEq, Repr

structure ColorAttachment where
  texture : Texture
  load : LoadAction
deriving DecidableEq, Repr

structure DepthAttachment where
  texture : Texture
  clear : Option UInt32
deriving DecidableEq, Repr

structure DrawCommand where
  label : String
  pipeline : RenderPipeline
  groups : List BindGroup
  colors : List ColorAttachment
  depth : Option DepthAttachment
  vertices : Nat
  instances : Nat
  index : Option IndexBinding
deriving DecidableEq, Repr

inductive Command where
  | dispatch (command : DispatchCommand)
  | draw (command : DrawCommand)
  | copyTexture (source destination : Texture) (extent : Extent)
  | copyBuffer (source destination : Buffer) (size : Nat)
  | clearBuffer (buffer : Buffer)
  | filter (prepared : PreparedFilter) (source destination : Texture) (extent : Extent)
deriving DecidableEq

def Command.label : Command → String
  | .dispatch command => command.label
  | .draw command => command.label
  | .copyTexture .. => "copy texture"
  | .copyBuffer .. => "copy buffer"
  | .clearBuffer _ => "clear buffer"
  | .filter prepared .. => prepared.filter.name

end FrameGraph
