import FrameGraph.Session

/-! # Creating bind groups

A bind group remembers the generations of the resources it was created from, its stamp. A refresh
creates a group anew exactly when the stamp has changed. An argument block has one bind group for all
passes that share it.
-/

namespace FrameGraph

/-- The generations behind a group, by binding; uniform blocks of the pass never change. -/
def GroupSpec.stamp (group : GroupSpec) (pool : Pool) : List (Option Nat) :=
  group.map fun binding =>
    match binding.source with
    | .buffer handle => (pool.bufferSlot? handle).map (·.generation)
    | .texture handle => (pool.textureSlot? handle).map (·.generation)
    | .bytes _ | .gridExtent => some 0

/-- The resource behind a binding. -/
def BindingSpec.resolve (label : String) (pool : Pool) (bytes : List Buffer) (grid : Option Buffer)
    (binding : BindingSpec) : Except PassError BoundResource := do
  let unbound := PassError.unbound s!"{label} ({binding.name})"
  match binding.source with
  | .buffer handle => return .buffer (← need (.missingBuffer label handle) (pool.buffer? handle))
  | .texture handle => return .texture (← need (.missingTexture label handle) (pool.texture? handle))
  | .bytes slot => return .buffer (← need unbound bytes[slot]?)
  | .gridExtent => return .buffer (← need unbound grid)

variable {σ : Type} [Device σ]

/-- Create a bind group from the resources as they are in the pool. -/
def GroupSpec.create (label : String) (group : GroupSpec) (pool : Pool) (bytes : List Buffer)
    (grid : Option Buffer) : SessionM σ BoundGroup := do
  let resources ← MonadExcept.ofExcept (group.mapM (BindingSpec.resolve label pool bytes grid))
  let created ← Session.perform label (Device.createBindGroup label group.layout resources)
  return ⟨created, group.stamp pool⟩

/-- The bind group of an argument block, created anew when a member was replaced. -/
def Session.blockGroup (block : Nat) (pool : Pool) : SessionM σ BindGroup := do
  let session ← get
  let layout ← need (.unbound s!"argument buffer #{block}") session.compiled.blocks[block]?
  let current := (session.blockGroups[block]?).join
  match current.filter (·.stamp == layout.group.stamp pool) with
  | some bound => return bound.group
  | none =>
    Session.note .debug .frame s!"binding argument buffer '{layout.name}'"
    let bound ← layout.group.create layout.name pool [] none
    modify fun session => { session with blockGroups := session.blockGroups.set block (some bound) }
    return bound.group

namespace Bindings

/-- What uniform blocks of a pass are for. -/
def blockUsage : BufferUsage := { uniform := true, copyDestination := true }

def createBlock (label name : String) (size : Nat) : SessionM σ Buffer :=
  Session.perform label (Device.createBuffer ⟨s!"{label} {name}", size, blockUsage⟩)

/-- The bind group at a group number of the pass itself. -/
def ownGroup (place : Nat) (group : GroupSpec) (view : PassView) : PassM Bindings σ BindGroup := do
  let bindings ← get
  let current := (bindings.own[place]?).join
  match current.filter (·.stamp == group.stamp view.pool) with
  | some bound => return bound.group
  | none =>
    let bound ← PartEffect.around
      (group.create bindings.label view.pool bindings.bytesBuffers bindings.gridBuffer)
    if current.isSome then
      PartEffect.around (Session.note .debug .pass s!"{bindings.label}: rebuilt bind group {place}")
    modify fun bindings => { bindings with own := bindings.own.set place (some bound) }
    return bound.group

def resolveGroup (view : PassView) : GroupBinding × Nat → PassM Bindings σ BindGroup
  | (.own group, place) => ownGroup place group view
  | (.shared block, _) => PartEffect.around (Session.blockGroup block view.pool)

/-- Create groups anew whose resources were replaced; the pass binds the new ones only when none of
them failed. -/
def refresh (view : PassView) : PassM Bindings σ Unit := do
  let resolved ← (← get).groups.zipIdx.mapM (resolveGroup view)
  modify fun bindings => { bindings with resolved }

def createBytesBlock (label : String) (slot : BytesSlot) : PassM Bindings σ Unit := do
  let buffer ← PartEffect.around (createBlock label slot.name slot.size)
  modify fun bindings => { bindings with bytesBuffers := bindings.bytesBuffers ++ [buffer] }

/-- Create the uniform blocks and the bind groups. -/
def setup (view : PassView) : PassM Bindings σ Unit := do
  let bindings ← get
  set { bindings with bytesBuffers := [] }
  bindings.bytes.forM (createBytesBlock bindings.label)
  if bindings.wantsGrid then
    let grid ← PartEffect.around (createBlock bindings.label "grid" 16)
    modify fun bindings => { bindings with gridBuffer := some grid }
  refresh view

/-- The bytes as they are now, cut or filled with zeros to the size of the block. -/
def blockBytes (shared : Shared) (slot : BytesSlot) : List UInt8 :=
  let bytes := (slot.source.sample shared).take slot.size
  bytes ++ List.replicate (slot.size - bytes.length) 0

/-- Upload the current value of every bytes argument. -/
def uploadBytes (bindings : Bindings) : SessionM σ Unit := do
  let shared := (← get).shared
  (bindings.bytes.zip bindings.bytesBuffers).forM fun (slot, buffer) =>
    Session.upload buffer (blockBytes shared slot)

/-- Upload the grid's extent if the pass binds it. -/
def uploadGrid (bindings : Bindings) (grid : Axes) : SessionM σ Unit :=
  bindings.gridBuffer.forM fun buffer => Session.upload buffer (GridPlan.extentBytes grid)

/-- The bind groups to set, by group number. -/
def bound (bindings : Bindings) : Except PassError (List BindGroup) :=
  if bindings.resolved.length = bindings.groups.length then .ok bindings.resolved
  else .error (.unbound bindings.label)

end Bindings

end FrameGraph
