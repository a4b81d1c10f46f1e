import FrameGraph.Pass.Bind

/-! # Kernel passes

Setup creates the pipeline and the bindings. Every preparation refreshes the bindings, reads the grid
from its source and uploads the uniform blocks. A grid with an empty axis launches nothing.
-/

namespace FrameGraph.DispatchPass

variable {σ : Type} [Device σ]

def bindingsLens : Lens DispatchPass Bindings :=
  ⟨DispatchPass.bindings, fun bindings pass => { pass with bindings }⟩

/-- Element counts are cut off at the range of 32-bit words. -/
def lengthExtent (count : Nat) : Extent := ⟨min count (UInt32.size - 1), 1, 1⟩

/-- The extent of the grid's source this frame. -/
def sourceExtent (pass : DispatchPass) (view : PassView) (shared : Shared) : Except PassError Extent :=
  match pass.compiled.grid.source with
  | .fixed extent => .ok extent
  | .dynamic size =>
    let axes := size.sample shared
    .ok ⟨axes.x, axes.y, axes.z⟩
  | .texture handle => do
    let slot ← need (.missingTexture pass.label handle) (view.pool.textureSlot? handle)
    return slot.texture.extent
  | .buffer handle => do
    let count ← need (.missingBuffer pass.label handle) (view.pool.bufferLength? handle)
    return lengthExtent count
  | .surface => .ok view.surface.extent

def setup (view : PassView) : PassM DispatchPass σ Unit := do
  let pass ← get
  let session ← (PartEffect.around get : PassM DispatchPass σ (Session σ))
  let module ← need (.unbound pass.label) (session.module? pass.compiled.unit)
  let pipeline ← PartEffect.around (Session.perform pass.label (Device.createComputePipeline {
    label := pass.label
    module
    entry := pass.compiled.entry
    groups := session.compiled.groupLayouts pass.bindings.groups }))
  modify fun pass => { pass with pipeline := some pipeline }
  (Bindings.setup view).inPart bindingsLens

def prepare (view : PassView) : PassM DispatchPass σ Unit := do
  (Bindings.refresh view).inPart bindingsLens
  let pass ← get
  let session ← (PartEffect.around get : PassM DispatchPass σ (Session σ))
  let extent ← MonadExcept.ofExcept (pass.sourceExtent view session.shared)
  let grid := pass.compiled.grid.extent extent
  set { pass with grid }
  PartEffect.around pass.bindings.uploadBytes
  PartEffect.around (pass.bindings.uploadGrid grid)

/-- Exact threads when the plan has them, else the workgroups that cover the grid. -/
def launchSize (pass : DispatchPass) : LaunchSize :=
  let plan := pass.compiled.grid
  if plan.exactThreads then .threads pass.grid plan.workgroup else .workgroups (plan.workgroups pass.grid)

/-- The command that launches the kernel. -/
def command (pass : DispatchPass) : Except PassError DispatchCommand := do
  let pipeline ← need (.unbound pass.label) pass.pipeline
  return { label := pass.label, pipeline, groups := ← pass.bindings.bound, size := pass.launchSize }

def encode (pass : DispatchPass) : EncodeM σ Unit := do
  let trace (text : String) : EncodeM σ Unit := PartEffect.around (Session.note .trace .dispatch text)
  if pass.grid.hasZero then trace s!"{pass.label}: empty grid, skipped"
  else
    let command ← MonadExcept.ofExcept pass.command
    Session.stream pass.label (CommandStream.record (.dispatch command))
    if pass.waitUntilCompleted then
      trace s!"{pass.label}: dispatch and wait"
      Session.stream pass.label CommandStream.commitAndWait

end FrameGraph.DispatchPass
