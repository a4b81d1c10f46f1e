import FrameGraph.Device.Interface
import FrameGraph.Surface

/-! # The recording device

A device that writes down what it is asked for. Textures, buffers, pipelines and bind groups draw
their numbers from one counter, so the numbers tell the order of creation.
-/

namespace FrameGraph

/-- An upload. -/
structure BufferWrite where
  buffer : Buffer
  offset : Nat
  bytes : List UInt8
deriving DecidableEq, Repr

/-- A submitted encoder. -/
structure Submission where
  index : Nat
  label : String
  commands : List Command
deriving DecidableEq

structure Recorder where
  caps : DeviceCaps := {}
  nextId : Nat := 1
  textures : List Texture := []
  buffers : List Buffer := []
  modules : List ShaderModule := []
  writes : List BufferWrite := []
  submissions : List Submission := []
  /-- Labels of textures whose next creation fails, once for each entry. -/
  failing : List String := []

namespace Recorder

/-- A fresh number. -/
def takeId : DeviceM Recorder Nat := do
  let recorder ← get
  set { recorder with nextId := recorder.nextId + 1 }
  return recorder.nextId

def createTexture (spec : TextureSpec) : DeviceM Recorder Texture := do
  if spec.extent.volume = 0 then throw (.creation spec.label "zero-sized texture")
  let recorder ← get
  if spec.label ∈ recorder.failing then
    set { recorder with failing := recorder.failing.erase spec.label }
    throw (.creation spec.label "injected failure")
  let id ← takeId
  let texture : Texture := { spec with id }
  modify fun recorder => { recorder with textures := recorder.textures ++ [texture] }
  return texture

def createBuffer (spec : BufferSpec) : DeviceM Recorder Buffer := do
  let id ← takeId
  let buffer : Buffer := { spec with id }
  modify fun recorder => { recorder with buffers := recorder.buffers ++ [buffer] }
  return buffer

def writeBuffer (buffer : Buffer) (offset : Nat) (bytes : List UInt8) (recorder : Recorder) : Recorder :=
  { recorder with writes := recorder.writes ++ [⟨buffer, offset, bytes⟩] }

def createModule (module : ShaderModule) : DeviceM Recorder ShaderModule := do
  modify fun recorder => { recorder with modules := recorder.modules ++ [module] }
  return module

/-- The text of a module has a function of this name, right before its parameters. -/
def declares (module : ShaderModule) (entry : String) : Bool :=
  (Text.afterFirst? (s!"fn {entry}(").toList module.source.toList).isSome

/-- Fail unless the module has the entry point. -/
def requireEntry (label : String) (module : ShaderModule) (entry : String) : DeviceM Recorder Unit :=
  if declares module entry then pure ()
  else throw (.creation label s!"entry point `{entry}` not found")

def createComputePipeline (spec : ComputePipelineSpec) : DeviceM Recorder ComputePipeline := do
  requireEntry spec.label spec.module spec.entry
  let id ← takeId
  return { spec with id }

def createRenderPipeline (spec : RenderPipelineSpec) : DeviceM Recorder RenderPipeline := do
  requireEntry spec.label spec.module spec.vertexEntry
  requireEntry spec.label spec.module spec.fragmentEntry
  let id ← takeId
  return { spec with id }

def createBindGroup (label : String) (layout : List LayoutEntry) (resources : List BoundResource) :
    DeviceM Recorder BindGroup := do
  if layout.length ≠ resources.length then
    throw (.creation label s!"{layout.length} layout entries but {resources.length} resources")
  let id ← takeId
  return { id, label, layout, resources }

def createFilter (filter : ImageFilter) (destination : PixelFormat) :
    DeviceM Recorder PreparedFilter :=
  if destination.storageName?.isSome then pure { filter, destination }
  else throw (.unsupported s!"{filter.name} into {destination.describe}")

def submit (label : String) (commands : List Command) : DeviceM Recorder Nat := do
  let recorder ← get
  let index := recorder.submissions.length
  let submission : Submission := ⟨index, label, commands⟩
  set { recorder with submissions := recorder.submissions ++ [submission] }
  return index

/-- Submissions finish at once; an unknown one is an error. -/
def wait (submission : Nat) : DeviceM Recorder Unit := do
  let recorder ← get
  if recorder.submissions.length ≤ submission then
    throw (.submission s!"unknown submission {submission}")

instance : Device Recorder where
  caps := Recorder.caps
  createTexture := createTexture
  createBuffer := createBuffer
  writeBuffer := writeBuffer
  createModule := createModule
  createComputePipeline := createComputePipeline
  createRenderPipeline := createRenderPipeline
  createBindGroup := createBindGroup
  createFilter := createFilter
  encode _ := pure ()
  submit := submit
  wait := wait

/-- A stand-in for the texture that a window hands out. -/
def surfaceTexture (surface : Surface) : DeviceM Recorder Texture :=
  createTexture {
    label := "surface"
    extent := surface.extent
    dimension := .d2
    format := surface.format
    usage := { renderTarget := true, copyDestination := true } }

/-- Make the next creation of a texture with this label fail. -/
def failTexture (label : String) (recorder : Recorder) : Recorder :=
  { recorder with failing := recorder.failing ++ [label] }

/-- Forget submissions and uploads. -/
def clear (recorder : Recorder) : Recorder := { recorder with submissions := [], writes := [] }

/-- Every command still logged, in submission order. -/
def commands (recorder : Recorder) : List Command := recorder.submissions.flatMap (·.commands)

end Recorder

end FrameGraph
