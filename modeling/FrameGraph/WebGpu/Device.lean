import FrameGraph.Device.Interface
import FrameGraph.Surface
import FrameGraph.Text.EntryPoint
import FrameGraph.WebGpu.Event

/-! # The WebGPU device

The backend decides which objects a request creates and in what order, makes buffers of whole words,
counts the resources of a bind group and prepares filters; what a command becomes is in
`EncoderCall.ofCommand`.

The WebGPU library below it is not the backend's. Of the library only this much is here, as WebGPU
documents it: the limits and usages that it checks (`fits`, `maxBufferSize`, `accepts`), without the
texts of its errors; of a shader module only that it has the entry points (`requireEntry`), since the
text of a module is taken to be well-formed; that one set of entries has one layout, whatever their
order; and that uploads wait for the next submission, in front of which they reach the hardware, while
a submission without a single call is not seen. Creations that fail leave no event of their own.
-/

namespace FrameGraph

namespace WebGpu

/-- An upload that waits for the next submission. -/
structure Upload where
  label : String
  offset : Nat
  bytes : List UInt8
deriving DecidableEq, Repr

end WebGpu

structure WebGpu where
  nextId : Nat := 1
  /-- The layouts created so far, each in the order of its binding numbers. -/
  layouts : List (List LayoutEntry) := []
  uploads : List WebGpu.Upload := []
  submissions : Nat := 0
  events : List WebGpu.DeviceEvent := []

namespace WebGpu

/-- What adapter the system offers. -/
inductive AdapterOffer where
  | usable
  /-- There is one, but it cannot be opened. -/
  | broken
  | none
deriving DecidableEq, Repr

/-- Open a device that can present to a surface. -/
def request : AdapterOffer → Except DeviceError WebGpu
  | .usable => .ok {}
  | .broken => .error (.refused "device")
  | .none => .error (.creation "adapter" "no suitable GPU adapter found")

def takeId : DeviceM WebGpu Nat := do
  let device ← get
  set { device with nextId := device.nextId + 1 }
  return device.nextId

def emit (event : DeviceEvent) : DeviceM WebGpu Unit :=
  modify fun device => { device with events := device.events ++ [event] }

/-! ## Textures and buffers -/

/-- The longest edge of a line or a plane. -/
def maxPlaneEdge : Nat := 8192

/-- The longest edge of a volume. -/
def maxVolumeEdge : Nat := 2048

def maxLayers : Nat := 256

/-- The most bytes of a buffer. -/
def maxBufferSize : Nat := 268435456

/-- No axis is longer than the dimension allows. -/
def fits (dimension : Dimension) (extent : Extent) : Bool :=
  match dimension with
  | .d1 => extent.width ≤ maxPlaneEdge && extent.height ≤ 1 && extent.depth ≤ 1
  | .d3 =>
    extent.width ≤ maxVolumeEdge && extent.height ≤ maxVolumeEdge && extent.depth ≤ maxVolumeEdge
  | .d2 | .d2Array | .cube =>
    extent.width ≤ maxPlaneEdge && extent.height ≤ maxPlaneEdge && extent.depth ≤ maxLayers

/-- The texture is made without empty axes. -/
def createTexture (spec : TextureSpec) : DeviceM WebGpu Texture := do
  let extent := solid spec.extent
  if spec.usage = {} ∨ !fits spec.dimension extent then throw (.refused spec.label)
  emit (.texture { spec with extent })
  emit (.view spec.label spec.dimension)
  return { spec with id := ← takeId }

def createBuffer (spec : BufferSpec) : DeviceM WebGpu Buffer := do
  let size := allocatedSize spec.size
  if spec.usage = {} ∨ maxBufferSize < size then throw (.refused spec.label)
  emit (.buffer spec.label size)
  return { spec with id := ← takeId }

def writeBuffer (buffer : Buffer) (offset : Nat) (bytes : List UInt8) (device : WebGpu) : WebGpu :=
  { device with uploads := device.uploads ++ [⟨buffer.label, offset, bytes⟩] }

/-! ## Programs and pipelines -/

def createModule (module : ShaderModule) : DeviceM WebGpu ShaderModule := do
  emit (.module module.label)
  return module

/-- Order by binding number. -/
def byBinding {α : Type} (binding : α → Nat) (items : List α) : List α :=
  items.mergeSort fun a b => decide (binding a ≤ binding b)

/-- Create a layout unless one with the same set of entries exists. -/
def ensureLayout (entries : List LayoutEntry) : DeviceM WebGpu Unit := do
  let entries := byBinding (·.binding) entries
  let device ← get
  if entries ∉ device.layouts then
    set { device with layouts := device.layouts ++ [entries] }
    emit (.layout entries)

def pipelineLayout (label : String) (groups : List (List LayoutEntry)) : DeviceM WebGpu Unit := do
  groups.forM ensureLayout
  emit (.pipelineLayout label groups.length)

/-- Fail unless the module has an entry point of this name for the stage. -/
def requireEntry (label : String) (module : ShaderModule) (stage : Stage) (entry : String) :
    DeviceM WebGpu Unit :=
  match EntryPoint.find module.source stage entry with
  | .ok _ => pure ()
  | .error _ => throw (.refused label)

def createComputePipeline (spec : ComputePipelineSpec) : DeviceM WebGpu ComputePipeline := do
  pipelineLayout spec.label spec.groups
  requireEntry spec.label spec.module .compute spec.entry
  emit (.computePipeline spec.label spec.entry)
  return { spec with id := ← takeId }

def createRenderPipeline (spec : RenderPipelineSpec) : DeviceM WebGpu RenderPipeline := do
  pipelineLayout spec.label spec.groups
  requireEntry spec.label spec.module .vertex spec.vertexEntry
  requireEntry spec.label spec.module .fragment spec.fragmentEntry
  emit (.renderPipeline spec)
  return { spec with id := ← takeId }

/-! ## Bind groups -/

/-- A format can be sampled as a binding expects; depths can be read as numbers that are not
interpolated. -/
def samples (expected : SampleKind) (format : PixelFormat) : Bool :=
  format.sampleKind == expected || expected == .float && format.sampleKind == .depth

/-- A resource is of the kind that a binding needs, and was made for it. -/
def accepts : BindingKind → BoundResource → Bool
  | .uniform, .buffer buffer => buffer.usage.uniform
  | .storage _, .buffer buffer => buffer.usage.storage
  | .texture dimension sample, .texture texture =>
    texture.usage.sampled && texture.dimension == dimension && samples sample texture.format
  | .storageTexture dimension format _, .texture texture =>
    texture.usage.storage && texture.dimension == dimension && texture.format == format
  | _, _ => false

/-- The event of a bind group; bindings stand in the order of their numbers. -/
def emitBindGroup (label : String) (bound : List (Nat × String)) : DeviceM WebGpu Unit :=
  emit (.bindGroup label (byBinding Prod.fst bound))

def createBindGroup (label : String) (layout : List LayoutEntry) (resources : List BoundResource) :
    DeviceM WebGpu BindGroup := do
  if layout.length ≠ resources.length then
    throw (.creation label s!"{layout.length} layout entries, {resources.length} resources")
  ensureLayout layout
  let bound := layout.zip resources
  if !bound.all fun (entry, resource) => accepts entry.kind resource then throw (.refused label)
  emitBindGroup label (bound.map fun (entry, resource) => (entry.binding, resource.label))
  return { id := ← takeId, label, layout, resources }

/-! ## Filters -/

/-- An image, a destination to write and the parameters. -/
def filterLayout (destination : PixelFormat) : List LayoutEntry :=
  [.texture .d2 .float, .storageTexture .d2 destination false, .uniform].zipIdx.map
    fun (kind, binding) => { binding, kind, visibility := .single .compute }

/-- The bytes of the parameters, lowest byte first. -/
def filterBytes (filter : ImageFilter) : List UInt8 :=
  filter.params.flatMap (wordBytes 4)

def createFilter (filter : ImageFilter) (destination : PixelFormat) :
    DeviceM WebGpu PreparedFilter := do
  if (filter.source? destination).isNone then
    throw (.unsupported s!"{filter.name} into {destination.describe}")
  ensureLayout (filterLayout destination)
  emit (.module filter.name)
  emit (.pipelineLayout filter.name 1)
  emit (.computePipeline filter.name "main")
  let bytes := filterBytes filter
  emit (.buffer filter.name bytes.length)
  modify fun device => { device with uploads := device.uploads ++ [⟨filter.name, 0, bytes⟩] }
  return { filter, destination }

/-! ## Commands -/

/-- A filter binds its images when it is recorded; other commands create nothing. -/
def encode : Command → DeviceM WebGpu Unit
  | .filter prepared source destination _ =>
    let name := prepared.filter.name
    emitBindGroup name [(0, source.label), (1, destination.label), (2, name)]
  | _ => pure ()

def flushUploads : DeviceM WebGpu Unit := do
  let device ← get
  set { device with uploads := [] }
  device.uploads.forM fun upload =>
    if upload.bytes.isEmpty then pure () else emit (.write upload.label upload.offset upload.bytes)

/-- Uploads that wait come first. -/
def submit (commands : List Command) : DeviceM WebGpu Nat := do
  flushUploads
  let calls := commands.flatMap EncoderCall.ofCommand
  if !calls.isEmpty then emit (.submit calls)
  let device ← get
  set { device with submissions := device.submissions + 1 }
  return device.submissions

instance : Device WebGpu where
  caps _ := {}
  createTexture := createTexture
  createBuffer := createBuffer
  writeBuffer := writeBuffer
  createModule := createModule
  createComputePipeline := createComputePipeline
  createRenderPipeline := createRenderPipeline
  createBindGroup := createBindGroup
  createFilter := createFilter
  encode := encode
  submit _ := submit
  wait _ := pure ()

/-! ## The window's surface -/

/-- Configure the surface and take its next texture, which passes draw or copy to. -/
def acquire (surface : Surface) : DeviceM WebGpu Texture := do
  emit (.configure surface)
  return {
    id := ← takeId
    label := "surface"
    extent := surface.extent
    dimension := .d2
    format := surface.format
    usage := { renderTarget := true, copyDestination := true } }

/-- Show the texture that was taken. -/
def present : DeviceM WebGpu Unit := emit .present

end WebGpu

end FrameGraph
