import FrameGraph.Filter
import FrameGraph.WebGpu.Trace

/-! # Encoder calls

The calls that a command turns into. A kernel and a filter get a compute pass of their own, a draw gets
a render pass; a copy of no whole word is not made. That the draw call of a draw of nothing is not seen
is what the WebGPU library below the backend does.
-/

namespace FrameGraph.WebGpu

/-- An extent without empty axes. -/
def solid (extent : Extent) : Extent := ⟨max extent.width 1, max extent.height 1, max extent.depth 1⟩

/-- Copies and clears work in whole words, so a buffer is made of whole words, and of one at least. -/
def allocatedSize (size : Nat) : Nat := Layout.roundUp 4 (max size 4)

/-- A call of a command encoder or of the pass that is open in it; objects go by their labels. -/
inductive EncoderCall where
  | computePass (label : String)
  | renderPass (label : String) (colors : List ColorAttachment) (depth : Option DepthAttachment)
  | setPipeline (label : String)
  | setGroup (index : Nat) (label : String)
  | setIndex (buffer : String) (format : IndexFormat)
  | dispatch (groups : Axes)
  | draw (vertices instances : Nat)
  | drawIndexed (count instances : Nat)
  | endPass
  | copyTexture (source destination : String) (extent : Extent)
  | copyBuffer (source destination : String) (size : Nat)
  | clearBuffer (label : String) (size : Nat)
deriving Repr

namespace EncoderCall

def setGroups (labels : List String) : List EncoderCall :=
  labels.zipIdx.map fun (label, index) => setGroup index label

/-- A compute pass with one launch. -/
def launch (label pipeline : String) (groups : List String) (count : Axes) : List EncoderCall :=
  computePass label :: setPipeline pipeline :: setGroups groups ++ [dispatch count, endPass]

/-- The draw call of a command; nothing is drawn without vertices or instances. -/
def ofVertices (command : DrawCommand) : List EncoderCall :=
  match command.index with
  | some index =>
    setIndex index.buffer.label index.format ::
      (if index.count = 0 ∨ command.instances = 0 then []
        else [drawIndexed index.count command.instances])
  | none =>
    if command.vertices = 0 ∨ command.instances = 0 then []
    else [draw command.vertices command.instances]

def ofDraw (command : DrawCommand) : List EncoderCall :=
  [renderPass command.label command.colors command.depth, setPipeline command.pipeline.label] ++
    setGroups (command.groups.map (·.label)) ++ ofVertices command ++ [endPass]

/-- The workgroups of a filter that cover an image. -/
def filterGroups (extent : Extent) : Axes :=
  ⟨groupsToCover extent.width ImageFilter.workgroupEdge,
    groupsToCover extent.height ImageFilter.workgroupEdge, 1⟩

/-- The whole words of a byte count. -/
def wholeWords (size : Nat) : Nat := size / 4 * 4

def ofCommand : Command → List EncoderCall
  | .dispatch command =>
    launch command.label command.pipeline.label (command.groups.map (·.label))
      command.size.workgroupCount
  | .draw command => ofDraw command
  | .copyTexture source destination extent =>
    [copyTexture source.label destination.label (solid extent)]
  | .copyBuffer source destination size =>
    if wholeWords size = 0 then [] else [copyBuffer source.label destination.label (wholeWords size)]
  | .clearBuffer buffer => [clearBuffer buffer.label (allocatedSize buffer.size)]
  | .filter prepared _ _ extent =>
    launch prepared.filter.name prepared.filter.name [prepared.filter.name] (filterGroups extent)

def traceLoad : LoadAction → TraceItem
  | .load => "load"
  | .clear red green blue alpha =>
    .row ([red, green, blue, alpha].map fun channel => .number channel.toNat)

def traceColor (color : ColorAttachment) : TraceItem :=
  .row [color.texture.label, traceLoad color.load, true]

def traceDepth (depth : DepthAttachment) : TraceItem :=
  .row [depth.texture.label, (depth.clear.map fun value => .number value.toNat).getD "load", true]

def indexName : IndexFormat → String
  | .u16 => "Uint16"
  | .u32 => "Uint32"

def trace : EncoderCall → TraceItem
  | computePass label => .call "compute_pass" [label]
  | renderPass label colors depth =>
    .call "render_pass" [label, .row (colors.map traceColor), .ofOption traceDepth depth]
  | setPipeline label => .call "pipeline" [label]
  | setGroup index label => .call "group" [index, label]
  | setIndex buffer format => .call "index" [buffer, 0, indexName format]
  | dispatch groups => .call "dispatch" [.ofAxes groups]
  | draw vertices instances => .call "draw" [0, vertices, 0, instances]
  | drawIndexed count instances => .call "draw_indexed" [0, count, 0, 0, instances]
  | endPass => .call "end" []
  | copyTexture source destination extent =>
    .call "copy_texture" [source, destination, .ofAxes extent.axes]
  | copyBuffer source destination size => .call "copy_buffer" [source, destination, 0, 0, size]
  | clearBuffer label size => .call "clear_buffer" [label, 0, size]

end EncoderCall

end FrameGraph.WebGpu
