import FrameGraph.Binding
import FrameGraph.Component
import FrameGraph.Resource.Usage

/-! # The words of WebGPU

The flags of usages and stages, and the names of formats, factors and topologies, as WebGPU has them. Which flag, name
or factor stands for which of the program's is the backend's choice; their numbers and spellings are WebGPU's.
-/

namespace FrameGraph.WebGpu

/-- Copies first, then sampling, storage and drawing. -/
def textureUsageBits (usage : TextureUsage) : Nat :=
  bitsOf [usage.copySource, usage.copyDestination, usage.sampled, usage.storage, usage.renderTarget]

/-- The two lowest bits mean mapping, and bit five vertices: no buffer has them. -/
def bufferUsageBits (usage : BufferUsage) : Nat :=
  bitsOf [false, false, usage.copySource, usage.copyDestination, usage.index, false, usage.uniform,
    usage.storage]

def stageBits (stages : StageSet) : Nat :=
  bitsOf [stages.vertex, stages.fragment, stages.compute]

/-- The shape of a texture's memory; arrays and cubes are layers of a plane. -/
def dimensionName : Dimension → String
  | .d1 => "D1"
  | .d2 | .d2Array | .cube => "D2"
  | .d3 => "D3"

def viewName : Dimension → String
  | .d1 => "D1"
  | .d2 => "D2"
  | .d2Array => "D2Array"
  | .d3 => "D3"
  | .cube => "Cube"

def topologyName : Topology → String
  | .triangleList => "TriangleList"
  | .triangleStrip => "TriangleStrip"
  | .lineList => "LineList"
  | .lineStrip => "LineStrip"
  | .pointList => "PointList"

/-- No sampler is ever bound, so samples are never interpolated. -/
def sampleName : SampleKind → String
  | .float => "Float \x7b filterable: false \x7d"
  | .uint => "Uint"
  | .sint => "Sint"
  | .depth => "Depth"

/-- The weights of the new and of the old value, which are added. -/
structure BlendFactors where
  source : String
  destination : String
deriving DecidableEq, Repr

/-- The weights of the colour and of its alpha. -/
def blendFactors : BlendMode → BlendFactors × BlendFactors
  | .replace => (⟨"One", "Zero"⟩, ⟨"One", "Zero"⟩)
  | .alpha => (⟨"SrcAlpha", "OneMinusSrcAlpha"⟩, ⟨"One", "OneMinusSrcAlpha"⟩)
  | .additive => (⟨"One", "One"⟩, ⟨"One", "One"⟩)

/-- The formats of a display surface that graphs can draw to. -/
def surfaceFormats : List PixelFormat :=
  [.rgba8Unorm, .rgba8UnormSrgb, .bgra8Unorm, .bgra8UnormSrgb, .rgba16Float]

/-- The surface format with this name. -/
def surfaceFormat? (name : String) : Option PixelFormat := surfaceFormats.find? (·.describe == name)

end FrameGraph.WebGpu
