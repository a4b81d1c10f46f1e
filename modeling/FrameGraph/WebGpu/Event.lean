import FrameGraph.Device.Object
import FrameGraph.Surface
import FrameGraph.Text.Hex
import FrameGraph.WebGpu.Call
import FrameGraph.WebGpu.Flags

/-! # Device events

What the hardware is given, in order: created objects, uploads, submissions and what happens to the
window's surface. The backend keeps no such list: it is what a driver below the WebGPU library would
write down.
-/

namespace FrameGraph.WebGpu

inductive DeviceEvent where
  | texture (spec : TextureSpec)
  | view (label : String) (dimension : Dimension)
  | buffer (label : String) (size : Nat)
  | layout (entries : List LayoutEntry)
  | pipelineLayout (label : String) (groups : Nat)
  | module (label : String)
  | computePipeline (label entry : String)
  | renderPipeline (spec : RenderPipelineSpec)
  /-- The label of the bound object for each binding number. -/
  | bindGroup (label : String) (bound : List (Nat × String))
  | write (label : String) (offset : Nat) (bytes : List UInt8)
  | submit (calls : List EncoderCall)
  | configure (surface : Surface)
  | present

namespace DeviceEvent

def traceKind : BindingKind → TraceItem
  | .uniform => .call "buffer" ["Uniform", false, .absent]
  | .storage readOnly =>
    .call "buffer" ["Storage \x7b read_only: " ++ toString readOnly ++ " \x7d", false, .absent]
  | .texture dimension sample => .call "texture" [sampleName sample, viewName dimension, false]
  | .storageTexture dimension format readWrite =>
    .call "storage_texture"
      [if readWrite then "ReadWrite" else "WriteOnly", format.describe, viewName dimension]

def traceEntry (entry : LayoutEntry) : TraceItem :=
  .row [entry.binding, stageBits entry.visibility, traceKind entry.kind]

def traceFactors (factors : BlendFactors) : TraceItem :=
  .row [factors.source, factors.destination, "Add"]

/-- All four channels are written. -/
def traceTarget (target : ColorTargetSpec) : TraceItem :=
  let (color, alpha) := blendFactors target.blend
  .row [target.format.describe, .row [traceFactors color, traceFactors alpha], 15]

/-- Nearer fragments win and write their depth. -/
def traceDepth (format : PixelFormat) : TraceItem := .row [format.describe, true, "Less"]

def trace : DeviceEvent → TraceItem
  | texture spec =>
    .call "texture"
      [spec.label, .ofAxes spec.extent.axes, dimensionName spec.dimension, spec.format.describe]
  | view label dimension => .call "view" [label, viewName dimension]
  | buffer label size => .call "buffer" [label, size]
  | layout entries => .call "layout" [.row (entries.map traceEntry)]
  | pipelineLayout label groups => .call "pipeline_layout" [label, groups]
  | module label => .call "program" [label]
  | computePipeline label entry => .call "compute_pipeline" [label, entry]
  | renderPipeline spec =>
    .call "render_pipeline"
      [spec.label, spec.vertexEntry, spec.fragmentEntry, topologyName spec.topology,
        .row (spec.targets.map traceTarget), .ofOption traceDepth spec.depth]
  | bindGroup label bound =>
    .call "bind_group" [label, .row (bound.map fun (binding, name) => .row [binding, name])]
  | write label offset bytes => .call "write" [label, offset, Text.hex bytes]
  | submit calls => .call "submit" [.row (calls.map EncoderCall.trace)]
  | configure surface =>
    .call "configure" [.row [surface.extent.width, surface.extent.height], surface.format.describe]
  | present => .call "present" []

end DeviceEvent

end FrameGraph.WebGpu
