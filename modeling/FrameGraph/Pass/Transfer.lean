import FrameGraph.Session

/-! # Copies, clears and filters

Copies take the overlap of source and destination. A filter is made ready for the format of its
destination at setup.
-/

namespace FrameGraph

/-- The part that two extents share. -/
def Extent.overlap (a b : Extent) : Extent :=
  ⟨min a.width b.width, min a.height b.height, min a.depth b.depth⟩

namespace Blit

def texture (node : Blit) (pool : Pool) (handle : TextureHandle) : Except PassError Texture :=
  need (.missingTexture node.label handle) (pool.texture? handle)

def buffer (node : Blit) (pool : Pool) (handle : BufferHandle) : Except PassError Buffer :=
  need (.missingBuffer node.label handle) (pool.buffer? handle)

/-- The command of a copy or a clear. -/
def command (node : Blit) (view : EncodeView) : Except PassError Command := do
  match node.op with
  | .copyTexture source destination =>
    let source ← node.texture view.pool source
    match destination with
    | .surface =>
      let target ← need (.noSurface node.label) view.target
      return .copyTexture source target (source.extent.overlap view.surface.extent)
    | .resource destination =>
      let destination ← node.texture view.pool destination
      return .copyTexture source destination (source.extent.overlap destination.extent)
  | .copyBuffer source destination =>
    let source ← node.buffer view.pool source
    let destination ← node.buffer view.pool destination
    return .copyBuffer source destination (min source.size destination.size)
  | .clearBuffer buffer => return .clearBuffer (← node.buffer view.pool buffer)

variable {σ : Type} [Device σ]

def encode (node : Blit) (view : EncodeView) : EncodeM σ Unit := do
  let command ← MonadExcept.ofExcept (node.command view)
  Session.stream node.label (CommandStream.record command)

end Blit

namespace FilterPass

variable {σ : Type} [Device σ]

def texture (pass : FilterPass) (pool : Pool) (handle : TextureHandle) : Except PassError Texture :=
  need (.missingTexture pass.node.label handle) (pool.texture? handle)

def setup (view : PassView) : PassM FilterPass σ Unit := do
  let pass ← get
  let destination ← MonadExcept.ofExcept (pass.texture view.pool pass.node.destination)
  let prepared ← PartEffect.around
    (Session.perform pass.node.label (Device.createFilter pass.node.filter destination.format))
  set { pass with prepared := some prepared }

def command (pass : FilterPass) (view : EncodeView) : Except PassError Command := do
  let prepared ← need (.unbound pass.node.label) pass.prepared
  let source ← pass.texture view.pool pass.node.source
  let destination ← pass.texture view.pool pass.node.destination
  return .filter prepared source destination destination.extent

def encode (pass : FilterPass) (view : EncodeView) : EncodeM σ Unit := do
  let command ← MonadExcept.ofExcept (pass.command view)
  Session.stream pass.node.label (CommandStream.record command)

end FilterPass

end FrameGraph
