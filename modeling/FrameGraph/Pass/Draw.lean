import FrameGraph.Pass.Bind

/-! # Draw passes

The pipeline is created for the formats of its targets, and created anew by a preparation that finds
other formats. Vertex and index counts are read when the draw is encoded.
-/

namespace FrameGraph.DrawPass

variable {σ : Type} [Device σ]

def bindingsLens : Lens DrawPass Bindings :=
  ⟨DrawPass.bindings, fun bindings pass => { pass with bindings }⟩

def textureFormat (pass : DrawPass) (pool : Pool) (handle : TextureHandle) : Except PassError PixelFormat := do
  let texture ← need (.missingTexture pass.label handle) (pool.texture? handle)
  return texture.format

/-- The format of a target as the view has it. -/
def targetFormat (pass : DrawPass) (view : PassView) : TextureRef → Except PassError PixelFormat
  | .surface => .ok view.surface.format
  | .resource handle => pass.textureFormat view.pool handle

/-- The formats of the colour targets, then that of the depth target. -/
def targetFormats (pass : DrawPass) (view : PassView) : Except PassError (List PixelFormat) := do
  let colors ← pass.targets.mapM fun target => pass.targetFormat view target.texture
  match pass.depth with
  | none => return colors
  | some depth => return colors ++ [← pass.textureFormat view.pool depth.texture]

/-- What the pipeline is created from. -/
def pipelineSpec (pass : DrawPass) (module : ShaderModule) (groups : List (List LayoutEntry))
    (formats : List PixelFormat) : RenderPipelineSpec where
  label := pass.label
  module
  vertexEntry := pass.compiled.vertexEntry
  fragmentEntry := pass.compiled.fragmentEntry
  groups
  targets := (pass.targets.zip formats).map fun (target, format) => ⟨format, target.blend⟩
  depth := pass.depth.bind fun _ => formats[pass.targets.length]?
  topology := pass.topology

def buildPipeline (formats : List PixelFormat) : PassM DrawPass σ Unit := do
  let pass ← get
  let session ← (PartEffect.around get : PassM DrawPass σ (Session σ))
  let module ← need (.unbound pass.label) (session.module? pass.compiled.unit)
  let spec := pass.pipelineSpec module (session.compiled.groupLayouts pass.bindings.groups) formats
  let pipeline ← PartEffect.around (Session.perform pass.label (Device.createRenderPipeline spec))
  set { pass with pipeline := some pipeline, formats }

def setup (view : PassView) : PassM DrawPass σ Unit := do
  buildPipeline (← MonadExcept.ofExcept ((← get).targetFormats view))
  (Bindings.setup view).inPart bindingsLens

def prepare (view : PassView) : PassM DrawPass σ Unit := do
  let pass ← get
  let formats ← MonadExcept.ofExcept (pass.targetFormats view)
  if formats ≠ pass.formats then
    PartEffect.around
      (Session.note .debug .draw s!"{pass.label}: target formats changed, rebuilding pipeline")
    buildPipeline formats
  (Bindings.refresh view).inPart bindingsLens
  PartEffect.around (← get).bindings.uploadBytes

/-- Element counts keep their low 32 bits. -/
def wordCount (count : Nat) : Nat := count % UInt32.size

def attachment (pass : DrawPass) (view : EncodeView) (target : ColorTarget) :
    Except PassError ColorAttachment := do
  match target.texture with
  | .surface => return ⟨← need (.noSurface pass.label) view.target, target.load⟩
  | .resource handle =>
    return ⟨← need (.missingTexture pass.label handle) (view.pool.texture? handle), target.load⟩

def depthAttachment (pass : DrawPass) (view : EncodeView) (depth : DepthTarget) :
    Except PassError DepthAttachment := do
  let texture ← need (.missingTexture pass.label depth.texture) (view.pool.texture? depth.texture)
  return ⟨texture, depth.clear⟩

def indexBinding (pass : DrawPass) (view : EncodeView) (index : BufferHandle × IndexFormat) :
    Except PassError IndexBinding := do
  let slot ← need (.missingBuffer pass.label index.1) (view.pool.bufferSlot? index.1)
  return ⟨slot.buffer, index.2, wordCount slot.elements⟩

def vertexCount (pass : DrawPass) (view : EncodeView) : Except PassError Nat := do
  match pass.vertices with
  | .fixed count => return count
  | .buffer handle =>
    return wordCount (← need (.missingBuffer pass.label handle) (view.pool.bufferLength? handle))

/-- The command that draws. -/
def command (pass : DrawPass) (view : EncodeView) : Except PassError DrawCommand := do
  let pipeline ← need (.unbound pass.label) pass.pipeline
  let colors ← pass.targets.mapM (pass.attachment view)
  let depth ← pass.depth.mapM (pass.depthAttachment view)
  let index ← pass.index.mapM (pass.indexBinding view)
  let vertices ← pass.vertexCount view
  let groups ← pass.bindings.bound
  return { label := pass.label, pipeline, groups, colors, depth, vertices, instances := pass.instances, index }

def encode (pass : DrawPass) (view : EncodeView) : EncodeM σ Unit := do
  let command ← MonadExcept.ofExcept (pass.command view)
  Session.stream pass.label (CommandStream.record (.draw command))

end FrameGraph.DrawPass
